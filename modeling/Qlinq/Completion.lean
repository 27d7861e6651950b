import Qlinq.AckSoundness
import Qlinq.Emissions
import Qlinq.Subscriber

namespace Qlinq

/-! No false completion: the records of an acknowledged object were queued. -/

/-- What a publisher sends under the ids of one subscription. -/
structure Publication where
  records : Nat → Nat → List Bytes
  object : Nat → Nat → MoqObject
  geometry : Nat → Nat → Geometry
  grouped : ∀ groupId objectId,
    (object groupId objectId).data = recordFraming.frames (records groupId objectId)
  sized : ∀ groupId objectId, ∀ record ∈ records groupId objectId,
    record.length ≤ maxFecRecordSize

theorem recovers_of_rateless (hrateless : (trackProfile track).fecRateless = true) :
    track.flags &&& (flagReliable ||| flagFecEnabled ||| flagFecRateless) ≠ 0 := by
  have hbit : track.flags &&& flagFecRateless ≠ 0 := by simpa [trackProfile] using hrateless
  intro hnone
  apply hbit
  have hmask : (flagReliable ||| flagFecEnabled ||| flagFecRateless) &&& flagFecRateless =
      flagFecRateless := by decide
  rw [← hmask, ← UInt8.and_assoc, hnone]
  decide

/-- A queue that keeps a log of its records: all of them are retained, or one is not. -/
theorem queueAll_logged {queueRecord : σ × List Bytes → Bytes → Option (σ × List Bytes)}
    (hlogged : ∀ queue record queue', queueRecord queue record = some queue' →
      queue'.2 = queue.2 ++ [record]) (queue : σ × List Bytes) (records : List Bytes) :
    (queueAll queueRecord queue records).2 = .unqueued ∨
      (queueAll queueRecord queue records).2 = .complete ∧
        (queueAll queueRecord queue records).1.2 = queue.2 ++ records := by
  induction records generalizing queue with
  | nil => exact Or.inr ⟨rfl, by simp [queueAll]⟩
  | cons record rest ih =>
      simp only [queueAll]
      cases hqueued : queueRecord queue record with
      | none => exact Or.inl rfl
      | some queue' =>
          have hrest := ih queue'
          rw [hlogged queue record queue' hqueued, List.append_assoc,
            List.singleton_append] at hrest
          exact hrest

namespace Subscriber

/-! ### The application's side of an event -/

/-- The object was handed over and, unless no stream was open, all its records queued. -/
def Kept (s : Subscriber) (identity : ObjectIdentity) (records : List Bytes) : Prop :=
  ∃ object ∈ s.handed, object.identity = identity ∧
    (object.queued = none ∨ object.queued = some records)

instance (s : Subscriber) (identity : ObjectIdentity) (records : List Bytes) :
    Decidable (s.Kept identity records) := by
  unfold Kept
  infer_instance

/-- Handling an event closes the connection at most, and adds to what was handed over. -/
structure Handles (s s' : Subscriber) : Prop where
  conn : ∃ close, s'.conn = { s.conn with closed := close }
  open_of_open : s'.conn.closed = none → s.conn.closed = none
  streams : s'.streams = s.streams
  handed : ∀ object ∈ s.handed, object ∈ s'.handed

namespace Handles

theorem refl (s : Subscriber) : Handles s s :=
  ⟨⟨s.conn.closed, rfl⟩, fun h => h, rfl, fun _ h => h⟩

theorem trans {s s' s'' : Subscriber} (hfirst : Handles s s') (hsecond : Handles s' s'') :
    Handles s s'' := by
  obtain ⟨close, hclose⟩ := hfirst.conn
  obtain ⟨close', hclose'⟩ := hsecond.conn
  refine ⟨⟨close', ?_⟩, fun h => hfirst.open_of_open (hsecond.open_of_open h),
    hsecond.streams.trans hfirst.streams,
    fun object h => hsecond.handed object (hfirst.handed object h)⟩
  rw [hclose', hclose]

theorem kept {s s' : Subscriber} (hhandles : Handles s s') (hkept : s.Kept identity records) :
    s'.Kept identity records := by
  obtain ⟨object, hmem, hobject⟩ := hkept
  exact ⟨object, hhandles.handed object hmem, hobject⟩

theorem findStream {s s' : Subscriber} (hhandles : Handles s s') (track : TrackId) :
    s'.findStream track = s.findStream track := by
  unfold Subscriber.findStream
  rw [hhandles.streams]

theorem of_same {s s' : Subscriber} (hconn : s'.conn = s.conn)
    (hstreams : s'.streams = s.streams) (hhanded : s.handed ⊆ s'.handed) : Handles s s' :=
  ⟨⟨s.conn.closed, hconn⟩, fun h => hconn ▸ h, hstreams, hhanded⟩

end Handles

theorem handles_queueNotice (s : Subscriber) (allocates : Memory) (messageSize : Nat) :
    Handles s (s.queueNotice allocates messageSize) :=
  .of_same rfl rfl fun _ h => h

theorem handles_rejectReceivedRecord (s : Subscriber) (allocates : Memory)
    (track : TrackId) : Handles s (s.rejectReceivedRecord allocates track) := by
  have hnotice := handles_queueNotice s allocates
    ((TrackStream.rejectReason track).utf8ByteSize + 1)
  unfold rejectReceivedRecord
  simp only
  split
  · refine hnotice.trans ⟨?_, fun h => ?_, rfl, fun _ h => h⟩
    · simp only [Conn.quiclyClose]
      split
      · exact ⟨_, rfl⟩
      · exact ⟨_, rfl⟩
    · have hclosed := Conn.closed_quiclyClose (s.queueError allocates
        (TrackStream.rejectReason track)).conn .resourceLimit (TrackStream.rejectReason track)
      rw [h] at hclosed
      cases hclosed
  · exact hnotice

/-- A rejected record of a rateless track closes the connection. -/
theorem closed_rejectReceivedRecord (s : Subscriber) (allocates : Memory)
    (hrateless : (trackProfile track).fecRateless = true) :
    (s.rejectReceivedRecord allocates track).conn.closed.isSome := by
  unfold rejectReceivedRecord
  simp only
  rw [if_pos (by simpa using recovers_of_rateless hrateless)]
  exact Conn.closed_quiclyClose _ _ _

theorem handles_queueObject (s : Subscriber) (allocates : Memory) (track : TrackId)
    (identity : ObjectIdentity) (data : Bytes) :
    Handles s (s.queueObject allocates track identity data) := by
  unfold queueObject
  generalize queueReceivedObject (s.queueRecord allocates track) (s.queue, []) track data =
    result
  obtain ⟨⟨queue, queued⟩, outcome⟩ := result
  simp only
  have hhanded : Handles s { s with
      queue := queue
      handed := s.handed ++ [⟨identity, if s.findStream track then some queued else none⟩] } :=
    .of_same rfl rfl (List.subset_append_left _ _)
  cases outcome with
  | complete => exact hhanded
  | malformedPayload => exact hhanded.trans (handles_queueNotice _ _ _)
  | malformedLength => exact hhanded.trans (handles_queueNotice _ _ _)
  | unqueued => exact hhanded.trans (handles_rejectReceivedRecord _ _ _)

theorem handles_onTransportEvent (allocates : Memory) (s : Subscriber) (event : Event) :
    Handles s (onTransportEvent allocates s event) := by
  cases event with
  | object track generation groupId objectId data symbols =>
      exact handles_queueObject s allocates track _ data
  | objectLost track groupId objectId => exact handles_queueNotice s allocates 0
  | subscribe track => exact handles_queueNotice s allocates 0
  | unsubscribe track => exact handles_queueNotice s allocates 0
  | keyframeRequest track => exact handles_queueNotice s allocates 0

theorem handed_rejectReceivedRecord (s : Subscriber) (allocates : Memory)
    (track : TrackId) : (s.rejectReceivedRecord allocates track).handed = s.handed := by
  unfold rejectReceivedRecord
  simp only
  split <;> rfl

theorem handed_queueObject (s : Subscriber) (allocates : Memory) (track : TrackId)
    (identity : ObjectIdentity) (data : Bytes) :
    (s.queueObject allocates track identity data).handed = s.handed ++ [⟨identity,
      if s.findStream track then
        some (queueReceivedObject (s.queueRecord allocates track) (s.queue, []) track data).1.2
      else
        none⟩] := by
  unfold queueObject
  generalize queueReceivedObject (s.queueRecord allocates track) (s.queue, []) track data =
    result
  obtain ⟨⟨queue, queued⟩, outcome⟩ := result
  cases outcome with
  | complete => rfl
  | malformedPayload => rfl
  | malformedLength => rfl
  | unqueued => exact handed_rejectReceivedRecord _ allocates track

theorem closed_queueObject {s : Subscriber} (identity : ObjectIdentity)
    (hrateless : (trackProfile track).fecRateless = true)
    (hunqueued : (queueReceivedObject (s.queueRecord allocates track) (s.queue, []) track
      data).2 = .unqueued) :
    (s.queueObject allocates track identity data).conn.closed.isSome := by
  unfold queueObject
  generalize queueReceivedObject (s.queueRecord allocates track) (s.queue, []) track data =
    result at hunqueued
  obtain ⟨⟨queue, queued⟩, outcome⟩ := result
  obtain rfl : outcome = .unqueued := hunqueued
  exact closed_rejectReceivedRecord _ allocates hrateless

theorem queueRecord_logged {s : Subscriber} {before after : EventQueue × List Bytes}
    (hopen : s.findStream track = true)
    (hqueued : s.queueRecord allocates track before record = some after) :
    after.2 = before.2 ++ [record] := by
  unfold queueRecord at hqueued
  rw [if_pos hopen] at hqueued
  obtain ⟨grown, _, rfl⟩ := Option.map_eq_some_iff.mp hqueued
  rfl

/-- An object of records that are not empty is queued whole, or the connection closes. -/
theorem kept_queueObject (s : Subscriber) (allocates : Memory) (identity : ObjectIdentity)
    (htrack : track.isRatelessData = true)
    (hsized : ∀ record ∈ records, record.length ≤ maxFecRecordSize)
    (hnonempty : s.findStream track = true → ∀ record ∈ records, record ≠ [])
    (hstays : (s.queueObject allocates track identity
      (recordFraming.frames records)).conn.closed = none) :
    (s.queueObject allocates track identity (recordFraming.frames records)).Kept identity
      records := by
  obtain ⟨hdata, hrateless⟩ : track.type = .data ∧ (trackProfile track).fecRateless = true := by
    simpa [TrackId.isRatelessData] using htrack
  have hloop : queueReceivedObject (s.queueRecord allocates track) (s.queue, []) track
      (recordFraming.frames records) = queueGroupedRecords (s.queueRecord allocates track)
        (s.queue, []) (recordFraming.frames records) :=
    if_pos ⟨hdata, by simp [TrackProfile.usesFec, hrateless]⟩
  have hmem := handed_queueObject s allocates track identity (recordFraming.frames records)
  cases hopen : s.findStream track with
  | false =>
      rw [hopen] at hmem
      refine ⟨⟨identity, none⟩, ?_, rfl, Or.inl rfl⟩
      rw [hmem]
      exact List.mem_append_right _ (List.mem_singleton_self _)
  | true =>
      have hall := queueGroupedRecords_frames (s.queueRecord allocates track) (s.queue, [])
        hsized (hnonempty hopen)
      rw [hopen, hloop, hall] at hmem
      cases queueAll_logged (fun _ _ _ => queueRecord_logged hopen) (s.queue, []) records with
      | inl hunqueued =>
          have hclosed := closed_queueObject identity hrateless (by
            rw [hloop, hall]
            exact hunqueued)
          rw [hstays] at hclosed
          cases hclosed
      | inr hcomplete =>
          refine ⟨⟨identity, some records⟩, ?_, rfl, Or.inr rfl⟩
          rw [hmem, hcomplete.2]
          exact List.mem_append_right _ (List.mem_singleton_self _)

theorem handles_events (allocates : Memory) (events : List Event) (s : Subscriber) :
    Handles s (events.foldl (onTransportEvent allocates) s) := by
  induction events generalizing s with
  | nil => exact .refl s
  | cons event rest ih => exact (handles_onTransportEvent allocates s event).trans (ih _)

theorem kept_events {events : List Event} {s : Subscriber}
    (hmem : .object track generation groupId objectId (recordFraming.frames records) symbols ∈
      events)
    (htrack : track.isRatelessData = true)
    (hsized : ∀ record ∈ records, record.length ≤ maxFecRecordSize)
    (hnonempty : s.findStream track = true → ∀ record ∈ records, record ≠ [])
    (hstays : (events.foldl (onTransportEvent allocates) s).conn.closed = none) :
    (events.foldl (onTransportEvent allocates) s).Kept ⟨generation, groupId, objectId⟩
      records := by
  induction events generalizing s with
  | nil => cases hmem
  | cons event rest ih =>
      have hrest := handles_events allocates rest (onTransportEvent allocates s event)
      cases hmem with
      | head =>
          exact hrest.kept (kept_queueObject s allocates _ htrack hsized hnonempty
            (hrest.open_of_open hstays))
      | tail _ hlater =>
          refine ih hlater (fun hopen => hnonempty ?_) hstays
          rw [← (handles_onTransportEvent allocates s event).findStream track]
          exact hopen

/-! ### Runs -/

/-- The generation is that of a rateless DATA subscription. -/
def OfRateless (generation : Nat) (s : Subscriber) : Op → Prop
  | .receive (.datagram _ datagram) _ =>
      ∀ track ∈ s.conn.receiveSubscriptions.findByAlias datagram.message.header.trackAlias,
        s.conn.receiveGeneration datagram.message.header.trackAlias = generation →
        track.isRatelessData = true
  | _ => True

instance (generation : Nat) (s : Subscriber) (op : Op) :
    Decidable (s.OfRateless generation op) := by
  unfold OfRateless
  split <;> infer_instance

/-- The symbols received in the generation are the publication's. -/
def Feeds (p : Publication) (codec : FecCodec) (generation : Nat) (s : Subscriber) : Op → Prop
  | .receive (.datagram env datagram) _ =>
      let header := datagram.message.header
      s.conn.receiveGeneration header.trackAlias = generation →
        env.codec = codec ∧
          SentFor codec (p.object header.groupId header.objectId)
            (p.geometry header.groupId header.objectId) datagram
  | _ => True

/-- A symbol of the generation is decoded with others of its encoding, and an object that
it completes for an open stream has no empty record. -/
def KeepsRecords (p : Publication) (generation : Nat) (s : Subscriber) : Op → Prop
  | .receive (.datagram env datagram) _ =>
      let header := datagram.message.header
      ∀ track ∈ s.conn.receiveSubscriptions.findByAlias header.trackAlias,
        s.conn.receiveGeneration header.trackAlias = generation →
        ((s.conn.placed env datagram).Decodes →
          FrameAssembler.OneEncoding (p.object header.groupId header.objectId)
            (trackProfile track).fecRateless (s.conn.placed env datagram)) ∧
        ((Conn.assembledBlocks env.codec (trackProfile track).fecRateless
            (s.conn.placed env datagram)).isSome = true →
          s.findStream track = true →
          ∀ record ∈ p.records header.groupId header.objectId, record ≠ [])
  | _ => True

instance (p : Publication) (generation : Nat) (s : Subscriber) (op : Op) :
    Decidable (s.KeepsRecords p generation op) := by
  unfold KeepsRecords
  split <;> infer_instance

/-- The connection answers the recovery frame in the operation soundly. -/
def AcksWhatArrived (s : Subscriber) : Op → Prop
  | .receive op _ => s.conn.AcksWhatArrived op
  | _ => True

instance (s : Subscriber) (op : Op) : Decidable (s.AcksWhatArrived op) := by
  unfold AcksWhatArrived
  split <;> infer_instance

/-- While the connection is open, what it handed out of the publication was kept. -/
structure Faithful (p : Publication) (codec : FecCodec) (generation : Nat) (s : Subscriber) :
    Prop where
  accountable : s.conn.Accountable
  intact : ∀ groupId objectId, Conn.Intact codec (p.object groupId objectId)
    (p.geometry groupId objectId) ⟨generation, groupId, objectId⟩ s.conn
  kept : s.conn.closed = none → ∀ groupId objectId,
    s.conn.handedOut ⟨generation, groupId, objectId⟩ →
    s.Kept ⟨generation, groupId, objectId⟩ (p.records groupId objectId)

variable {p : Publication} {codec : FecCodec} {generation : Nat}

theorem faithful_init (limits : TransportLimits) (queue : EventQueue) :
    Faithful p codec generation (init limits queue) where
  accountable := Conn.ledger_init _ 0 limits
  intact _ _ := Conn.intact_init 0 limits
  kept _ _ _ h := by simp [init, Conn.handedOut, Conn.init, Conn.deliveries] at h

theorem intact_receive (hlaw : codec.Recovers) (limits : TransportLimits) {s : Subscriber}
    (hfaithful : Faithful p codec generation s) (op : Conn.ReceiveOp) (allocates : Memory)
    (hfeeds : s.Feeds p codec generation (.receive op allocates))
    (hkeeps : s.KeepsRecords p generation (.receive op allocates)) (groupId objectId : Nat) :
    Conn.Intact codec (p.object groupId objectId) (p.geometry groupId objectId)
      ⟨generation, groupId, objectId⟩ (Conn.receive limits s.conn op) := by
  refine (hfaithful.intact groupId objectId).receive hlaw limits op ?_ ?_
  · intro env datagram track hop hbound hidentity
    subst hop
    obtain ⟨hgeneration, rfl, rfl⟩ := ObjectIdentity.mk.inj hidentity
    exact hfeeds hgeneration
  · intro env datagram track hop hbound hidentity
    subst hop
    obtain ⟨hgeneration, rfl, rfl⟩ := ObjectIdentity.mk.inj hidentity
    exact (hkeeps track hbound hgeneration).1

/-- The event of an object that the publication's symbol completes. -/
theorem completes_publication {s : Subscriber}
    (hrateless : s.OfRateless generation (.receive op allocates))
    (hkeeps : s.KeepsRecords p generation (.receive op allocates))
    (hcompletes : s.conn.Completes op event)
    (hidentity : event.delivery = some (track, ⟨generation, groupId, objectId⟩)) :
    track.isRatelessData = true ∧
      (s.findStream track = true → ∀ record ∈ p.records groupId objectId, record ≠ []) ∧
      ∃ data symbols, event = .object track generation groupId objectId data symbols ∧
        event.payload = some (⟨generation, groupId, objectId⟩, data) := by
  obtain ⟨env, datagram, bound, blocks, rfl, hbound, hblocks, rfl⟩ := hcompletes
  obtain ⟨halias, hgroup, hobject⟩ := Conn.placed_identity s.conn env datagram
  simp only [Conn.completion, Event.delivery] at hidentity
  split at hidentity
  · cases hidentity
  next hdatagram =>
  obtain ⟨rfl, hsame⟩ := Prod.mk.inj (Option.some.inj hidentity)
  rw [halias, hgroup, hobject] at hsame
  obtain ⟨hgeneration, rfl, rfl⟩ := ObjectIdentity.mk.inj hsame
  refine ⟨hrateless bound hbound hgeneration,
    (hkeeps bound hbound hgeneration).2 (by rw [hblocks]; rfl),
    blocks.flatten.take (s.conn.placed env datagram).originalSize,
    (s.conn.placed env datagram).received.map Sent.track, ?_, ?_⟩
  · simp only [Conn.completion, halias, hgroup, hobject, hgeneration]
  · simp only [Conn.completion, Event.payload, halias, hgroup, hobject, hgeneration,
      if_neg hdatagram]

theorem kept_receive (hlaw : codec.Recovers) (limits : TransportLimits) {s : Subscriber}
    (hfaithful : Faithful p codec generation s) (op : Conn.ReceiveOp) (allocates : Memory)
    (hrateless : s.OfRateless generation (.receive op allocates))
    (hfeeds : s.Feeds p codec generation (.receive op allocates))
    (hkeeps : s.KeepsRecords p generation (.receive op allocates))
    (hopen : (apply limits s (.receive op allocates)).conn.closed = none)
    (groupId objectId : Nat)
    (hhanded : (Conn.receive limits s.conn op).handedOut ⟨generation, groupId, objectId⟩) :
    (apply limits s (.receive op allocates)).Kept ⟨generation, groupId, objectId⟩
      (p.records groupId objectId) := by
  obtain ⟨events, hemits, hcompletes⟩ := Conn.receive_emits limits s.conn op
  have hintact := intact_receive hlaw limits hfaithful op allocates hfeeds hkeeps groupId
    objectId
  simp only [apply] at hopen ⊢
  generalize Conn.receive limits s.conn op = conn at hemits hhanded hintact hopen ⊢
  rw [hemits.events_eq, List.drop_left] at hopen ⊢
  have hhandles := handles_events allocates events { s with conn := conn }
  obtain ⟨⟨track, identity⟩, hdelivery, rfl⟩ := hhanded
  rw [Conn.deliveries, hemits.events_eq, List.filterMap_append] at hdelivery
  cases List.mem_append.mp hdelivery with
  | inl hold =>
      have hkept := hfaithful.kept (hemits.open_of_open (hhandles.open_of_open hopen)) groupId
        objectId ⟨_, hold, rfl⟩
      exact hhandles.kept hkept
  | inr hnew =>
      obtain ⟨event, hmem, hevent⟩ := List.mem_filterMap.mp hnew
      have hsymbol := (hcompletes event hmem).resolve_left (by simp [hevent])
      obtain ⟨htrack, hnonempty, data, symbols, rfl, hpayload⟩ :=
        completes_publication hrateless hkeeps hsymbol hevent
      have hdata := hintact.delivered data (by
        rw [Conn.payloads, hemits.events_eq, List.filterMap_append]
        exact List.mem_append_right _ (List.mem_filterMap.mpr ⟨_, hmem, hpayload⟩))
      rw [hdata, p.grouped] at hmem
      exact kept_events hmem htrack (p.sized groupId objectId) hnonempty hopen

theorem faithful_apply (hlaw : codec.Recovers) (limits : TransportLimits) {s : Subscriber}
    (hfaithful : Faithful p codec generation s) (op : Op)
    (hrateless : s.OfRateless generation op) (hfeeds : s.Feeds p codec generation op)
    (hkeeps : s.KeepsRecords p generation op)
    (hacks : s.AcksWhatArrived op) : Faithful p codec generation (apply limits s op) := by
  cases op with
  | receive op allocates =>
      have hkept := kept_receive hlaw limits hfaithful op allocates hrateless hfeeds hkeeps
      have hintact := intact_receive hlaw limits hfaithful op allocates hfeeds hkeeps
      have haccountable := Conn.accountable_receive limits hfaithful.accountable op hacks
      have hhandles := handles_events allocates
        ((Conn.receive limits s.conn op).events.drop s.conn.events.length)
        { s with conn := Conn.receive limits s.conn op }
      obtain ⟨close, hconn⟩ := hhandles.conn
      refine ⟨?_, fun groupId objectId => ?_, fun hopen groupId objectId hhanded => ?_⟩
      · simp only [apply, hconn]
        exact haccountable.keeps (.of_untouched rfl rfl fun _ => rfl) (.of_untouched rfl rfl rfl)
      · simp only [apply, hconn]
        exact (hintact groupId objectId).keeps (.of_untouched rfl rfl rfl) (.of_untouched rfl rfl)
      · refine hkept hopen groupId objectId ?_
        simp only [apply, hconn] at hhanded
        exact hhanded
  | nextEvent => exact ⟨hfaithful.accountable, hfaithful.intact, hfaithful.kept⟩
  | queueEvent payloadSize messageSize =>
      exact ⟨hfaithful.accountable, hfaithful.intact, hfaithful.kept⟩
  | streams streams => exact ⟨hfaithful.accountable, hfaithful.intact, hfaithful.kept⟩

/-- In a run that meets the conditions and left the connection open, every object that a
transmitted ACK covers was queued record by record, or found no open stream. -/
theorem run_acks_kept (hlaw : codec.Recovers) (p : Publication) (generation : Nat)
    (limits : TransportLimits) (queue : EventQueue)
    (hrateless : Machine.Along (apply limits) (OfRateless generation) (init limits queue) ops)
    (hfeeds : Machine.Along (apply limits) (Feeds p codec generation) (init limits queue) ops)
    (hkeeps : Machine.Along (apply limits) (KeepsRecords p generation) (init limits queue) ops)
    (hacks : Machine.Along (apply limits) AcksWhatArrived (init limits queue) ops)
    (hopen : (run limits (init limits queue) ops).conn.closed = none)
    {frame : Sent ControlFrame} {ack : TrackCheckpointAck}
    (hframe : frame ∈ (run limits (init limits queue) ops).conn.control)
    (hack : frame.message = .trackCheckpointAck ack)
    (hsent : frame.generation = generation)
    {accepted : Sent (TrackAlias × RecoveryWindow)}
    (haccepted : accepted ∈ (run limits (init limits queue) ops).conn.acceptedWindows)
    (hgeneration : accepted.generation = generation)
    (hgroup : accepted.message.2.groupId = ack.groupId)
    (hcovers : accepted.message.2.covers objectId) (hreached : objectId ≤ ack.finalObjectId) :
    (run limits (init limits queue) ops).Kept ⟨generation, ack.groupId, objectId⟩
      (p.records ack.groupId objectId) := by
  have hrun : Faithful p codec generation (run limits (init limits queue) ops) :=
    Machine.invariant_run
      (fun _ op hinv hok =>
        faithful_apply hlaw limits hinv op hok.1.1.1 hok.1.1.2 hok.1.2 hok.2)
      (faithful_init limits queue) (((hrateless.and hfeeds).and hkeeps).and hacks)
  generalize run limits (init limits queue) ops = s at hopen hframe haccepted hrun ⊢
  refine hrun.kept hopen ack.groupId objectId ?_
  subst hsent
  exact hrun.accountable.delivered_of_ack hframe hack haccepted hgeneration hgroup
    (hcovers.1.trans hreached) objectId hcovers

/-! ### A publication of one group -/

def feedRecords (records : List Bytes) (groupId objectId : Nat) : List Bytes :=
  if groupId = 0 ∧ objectId = 0 then records else []

def feedObject (records : List Bytes) (groupId objectId : Nat) : MoqObject where
  trackId := Conn.feedTrack
  groupId := groupId
  objectId := objectId
  data := recordFraming.frames (feedRecords records groupId objectId)

/-- The records are object 0 of group 0. -/
def feedPublication (records : List Bytes)
    (hsized : ∀ record ∈ records, record.length ≤ maxFecRecordSize) : Publication where
  records := feedRecords records
  object := feedObject records
  geometry _ _ := ⟨5, 1, 5⟩
  grouped _ _ := rfl
  sized groupId objectId := by
    unfold feedRecords
    split
    · exact hsized
    · simp

def feedSender : Conn :=
  (Transport.server.run (Transport.join 0 defaultLimits 8 Conn.feedTrack)).conns.headD
    (Conn.init 0 defaultLimits)

def feedAttempt (records : List Bytes) : Conn :=
  (publishDatagramToConn { Transport.quietConn with codec := Repetition.codec } feedSender
    (feedObject records 0 0) (trackProfile Conn.feedTrack) 5 1).1

def feedPackets (records : List Bytes) : List (Sent Datagram) :=
  (feedAttempt records).datagrams.drop feedSender.datagrams.length

theorem sentFor_feedPackets (hsize : (feedObject records 0 0).size = 5)
    (hpacket : packet ∈ feedPackets records) :
    SentFor Repetition.codec (feedObject records 0 0) ⟨5, 1, 5⟩ packet := by
  obtain ⟨packets, hattempt, _⟩ := publishDatagramToConn_symbols
    { Transport.quietConn with codec := Repetition.codec } feedSender
    (feedObject records 0 0) 5 1
  unfold feedPackets feedAttempt at hpacket
  rw [show trackProfile Conn.feedTrack = trackProfile (feedObject records 0 0).trackId from rfl,
    hattempt, List.drop_left] at hpacket
  exact .published rfl hsize.symm hattempt hpacket

def feedStream : SubscribedStream where
  type := .data
  delivery := .rateless
  name := Conn.feedTrack.name

def calmQueue : EventQueue where
  maxQueuedEvents := 16
  maxQueuedEventBytes := 4096
  nodeSize := 200

/-- The application opens its stream, the object arrives, then the window that
announces it. -/
def feedOps (packets : List (Sent Datagram)) : List Conn.ReceiveOp :=
  Conn.subscribing defaultLimits Conn.feedTrack ++
    packets.map (.datagram Conn.parityReceive) ++
    [.trackCheckpoint (Conn.checkpointOf 0 0 0 false)]

def feedRun (records : List Bytes) : List Op :=
  .streams [feedStream] :: (feedOps (feedPackets records)).map (.receive · fun _ _ => true)

theorem mem_feedRun (hmem : .receive (.datagram env datagram) allocates ∈ feedRun records) :
    env = Conn.parityReceive ∧ datagram ∈ feedPackets records := by
  obtain ⟨hop, _⟩ : .datagram env datagram ∈ feedOps (feedPackets records) ∧
      (fun _ _ => true) = allocates := by
    simpa [feedRun] using hmem
  obtain ⟨packet, hpacket, henv, hpacket'⟩ : ∃ packet ∈ feedPackets records,
      Conn.parityReceive = env ∧ packet = datagram := by
    simpa [feedOps, Conn.subscribing] using hop
  exact ⟨henv.symm, hpacket' ▸ hpacket⟩

theorem along_feedRun (hsized : ∀ record ∈ records, record.length ≤ maxFecRecordSize)
    (hsize : (feedObject records 0 0).size = 5)
    (hfirst : ∀ packet ∈ feedPackets records,
      packet.message.header.groupId = 0 ∧ packet.message.header.objectId = 0) :
    Machine.Along (apply defaultLimits)
      (Feeds (feedPublication records hsized) Repetition.codec 1) (init defaultLimits calmQueue)
      (feedRun records) := by
  refine Machine.along_of_forall_mem (fun s op hmem => ?_) _
  unfold Feeds
  split
  · next env datagram allocates =>
      obtain ⟨rfl, hpacket⟩ := mem_feedRun hmem
      obtain ⟨hgroup, hobject⟩ := hfirst datagram hpacket
      intro header _
      refine ⟨rfl, ?_⟩
      simp only [header, hgroup, hobject]
      exact sentFor_feedPackets hsize hpacket
  · trivial

/-- The record was queued by the time its object is acknowledged. -/
theorem record_kept_acked :
    Conn.ackOf 0 0 ∈
      (run defaultLimits (init defaultLimits calmQueue) (feedRun [[7, 8, 9]])).conn.control ∧
    (run defaultLimits (init defaultLimits calmQueue) (feedRun [[7, 8, 9]])).Kept ⟨1, 0, 0⟩
      [[7, 8, 9]] := by
  have hsized : ∀ record ∈ ([[7, 8, 9]] : List Bytes), record.length ≤ maxFecRecordSize := by decide
  have hack : Conn.ackOf 0 0 ∈ (run defaultLimits (init defaultLimits calmQueue)
      (feedRun [[7, 8, 9]])).conn.control := by decide +kernel
  have haccepted : (⟨Conn.feedTrack, 1, (8, ⟨0, 0, 0, 0⟩)⟩ :
      Sent (TrackAlias × RecoveryWindow)) ∈ (run defaultLimits (init defaultLimits calmQueue)
        (feedRun [[7, 8, 9]])).conn.acceptedWindows := by decide +kernel
  exact ⟨hack, run_acks_kept Repetition.recovers_codec (feedPublication [[7, 8, 9]] hsized) 1
    defaultLimits calmQueue (by decide +kernel)
    (along_feedRun hsized (by decide +kernel) (by decide +kernel)) (by decide +kernel +revert)
    (by decide +kernel) (by decide +kernel) hack rfl rfl haccepted rfl rfl
    ⟨Nat.le_refl 0, Nat.le_refl 0⟩ (Nat.le_refl 0)⟩

/-- An empty record ends the application's loop: the record behind it is not queued, and
the object is acknowledged. -/
theorem empty_record_acked :
    Machine.Along (apply defaultLimits)
      (Feeds (feedPublication [[], [7]] (by decide)) Repetition.codec 1)
      (init defaultLimits calmQueue) (feedRun [[], [7]]) ∧
    (run defaultLimits (init defaultLimits calmQueue) (feedRun [[], [7]])).conn.closed = none ∧
    Conn.ackOf 0 0 ∈
      (run defaultLimits (init defaultLimits calmQueue) (feedRun [[], [7]])).conn.control ∧
    (⟨Conn.feedTrack, 1, (8, ⟨0, 0, 0, 0⟩)⟩ : Sent (TrackAlias × RecoveryWindow)) ∈
      (run defaultLimits (init defaultLimits calmQueue)
        (feedRun [[], [7]])).conn.acceptedWindows ∧
    (run defaultLimits (init defaultLimits calmQueue) (feedRun [[], [7]])).findStream
      Conn.feedTrack = true ∧
    ¬ (run defaultLimits (init defaultLimits calmQueue) (feedRun [[], [7]])).Kept ⟨1, 0, 0⟩
      [[], [7]] :=
  ⟨along_feedRun _ (by decide +kernel) (by decide +kernel), by decide +kernel⟩

end Subscriber

end Qlinq
