import Qlinq.Answering
import Qlinq.Attending
import Qlinq.TableMirror

namespace Qlinq

open Replay (replay replay_next)

/-! Both directions of one control stream: the frames of a subscriber, and what the
publisher announces to it. -/

/-- The alias under which a recovery frame announces, and the last object it announces. -/
def ControlFrame.announces : ControlFrame → Option (TrackAlias × Nat)
  | .trackCheckpoint checkpoint => some (checkpoint.trackAlias, checkpoint.finalObjectId)
  | .trackEnd finish => some (finish.trackAlias, finish.finalObjectId)
  | _ => none

namespace Transport

/-- The rateless DATA track has announced the object. -/
def HasAnnounced (t : Transport) (track : TrackId) (groupId objectId : Nat) : Prop :=
  track.isRatelessData = true ∧ groupId = 0 ∧
    ∃ last, t.checkpointOf track = some ⟨0, last⟩ ∧ objectId ≤ last

theorem HasAnnounced.grow {t t' : Transport}
    (hgrow : Conn.MarksGrow t.checkpointOf t'.checkpointOf) (track : TrackId)
    (groupId objectId : Nat) (hannounced : t.HasAnnounced track groupId objectId) :
    t'.HasAnnounced track groupId objectId := by
  obtain ⟨hrateless, hgroup, last, hlast, hreached⟩ := hannounced
  obtain ⟨later, hlater, hle⟩ := hgrow track last hlast
  exact ⟨hrateless, hgroup, later, hlater, hreached.trans hle⟩

end Transport

/-- A SUBSCRIBE that repeats one under which something was acknowledged finds room for
the baseline it starts anew with. -/
def Conn.RoomToRejoin (c : Conn) : ControlFrame → Prop
  | .subscribe a track => c.sendSubscriptions.findByAlias a = some track →
      (c.checkpointAck a).acked.isSome = true → c.admission = .admitted
  | _ => True

instance (c : Conn) (message : ControlFrame) : Decidable (c.RoomToRejoin message) := by
  cases message <;> unfold Conn.RoomToRejoin <;> infer_instance

/-- A publisher and its subscriber, which has read the publisher's control stream up to
`heard`. -/
structure Dialogue extends Session where
  heard : Nat := 0

namespace Dialogue

/-- `hear` hands the next frame of the publisher to the subscriber. -/
inductive Op where
  | publisher (op : Transport.Op)
  | subscriber (op : Conn.ReceiveOp)
  | deliver (env : RepairEnv)
  | hear

/-- The publisher's end of the connection. -/
def conn? (d : Dialogue) : Option Conn := Keyed.lookup Conn.id d.connId d.publisher.conns

/-- The next frame of the publisher in flight. -/
def nextHeard (d : Dialogue) : Option (Sent ControlFrame) :=
  d.conn?.bind fun c => c.control[d.heard]?

/-- Recovery frames of the publisher are only heard. -/
def subscribe (d : Dialogue) (op : Conn.ReceiveOp) : Dialogue :=
  match op with
  | .trackCheckpoint _ => d
  | .trackEnd _ => d
  | _ => { d with subscriber := d.subscriber.receive d.limits op }

def hear (d : Dialogue) : Dialogue :=
  match d.nextHeard with
  | none => d
  | some frame =>
      match frame.message with
      | .trackCheckpoint checkpoint =>
          { d with
            subscriber := d.subscriber.receive d.limits (.trackCheckpoint checkpoint)
            heard := d.heard + 1 }
      | .trackEnd finish =>
          { d with
            subscriber := d.subscriber.receive d.limits (.trackEnd finish)
            heard := d.heard + 1 }
      | _ => { d with heard := d.heard + 1 }

def apply (d : Dialogue) : Op → Dialogue
  | .publisher op => { d with toSession := d.toSession.publish op }
  | .subscriber op => d.subscribe op
  | .deliver env => { d with toSession := d.toSession.deliver env }
  | .hear => d.hear

def run (d : Dialogue) (ops : List Op) : Dialogue := Machine.run apply d ops

def start (t : Transport) (limits : TransportLimits) : Dialogue where
  toSession := Session.start t limits

/-! ### Conditions -/

/-- The next frame of the subscriber finds room for what it is answered with. -/
def RoomToRejoin (d : Dialogue) : Prop :=
  ∀ c ∈ d.conn?, c.closed = none → ∀ frame ∈ d.subscriber.control[d.read]?,
    c.RoomToRejoin frame.message

/-- The track that the subscriber has bound to the alias of the next recovery frame has
announced what the frame does. -/
def Understood (d : Dialogue) : Prop :=
  ∀ frame ∈ d.nextHeard, ∀ announced ∈ frame.message.announces,
    ∀ track ∈ d.subscriber.recoveryTrack announced.1,
      ∃ last ∈ d.publisher.checkpointOf track, announced.2 ≤ last.objectId

/-- What a step of an honest pair asks for. -/
def Op.heeds (d : Dialogue) : Op → Prop
  | .publisher op => op.agrees d.connId d.publisher
  | .subscriber _ => True
  | .deliver _ => d.RoomToRejoin
  | .hear => d.Understood

instance (d : Dialogue) : Decidable d.RoomToRejoin := by
  unfold RoomToRejoin
  infer_instance

instance (d : Dialogue) : Decidable d.Understood := by
  unfold Understood
  infer_instance

instance (d : Dialogue) (op : Op) : Decidable (op.heeds d) := by
  cases op <;> unfold Op.heeds <;> infer_instance

/-! ### Faithful pairs -/

/-- The publisher attends to the connection, and the subscriber acknowledges only what
was announced. -/
structure Faithful (d : Dialogue) : Prop where
  mirrored : d.toSession.Mirrored
  announcing : d.publisher.Announcing False d.connId
  answering : d.subscriber.Answering d.publisher.HasAnnounced
    d.subscriber.negotiatedLimits.maxSubscriptionsPerConnection

/-- A step of a faithful pair: it stays faithful, and no ACK is taken back. -/
structure Proceeds (d d' : Dialogue) : Prop where
  faithful : d'.Faithful
  acks : ∀ c', d'.conn? = some c' → ∃ c, d.conn? = some c ∧ Conn.AcksGrow c c'

namespace Faithful

variable {d : Dialogue}

theorem stays (hfaithful : d.Faithful) : Proceeds d d :=
  ⟨hfaithful, fun c hc => ⟨c, hc, Conn.acksGrow_of_same fun _ => rfl⟩⟩

/-- The publisher moves on. -/
theorem onward {publisher : Transport} (hfaithful : d.Faithful) {read : Nat}
    {refused : List ControlFrame}
    (hmirrored : Session.Mirrored { d.toSession with
      publisher := publisher, read := read, refused := refused })
    (honward : Transport.Onward False d.connId d.publisher publisher) :
    Proceeds d { d with publisher := publisher, read := read, refused := refused } where
  faithful :=
    ⟨hmirrored, honward.announcing, hfaithful.answering.mono (.grow honward.marks)⟩
  acks := honward.acks

theorem publish (hfaithful : d.Faithful) {op : Transport.Op}
    (hagrees : op.agrees d.connId d.publisher) :
    Proceeds d (d.apply (.publisher op)) := by
  have hmirrored := hfaithful.mirrored.publish op
  have happlied : d.apply (.publisher op) = { d with toSession := d.toSession.publish op } := rfl
  rw [happlied]
  rcases d.toSession.publish_cases op with hsame | ⟨happly, hother⟩
  · rw [hsame]
    exact hfaithful.stays
  · rw [happly] at hmirrored ⊢
    obtain ⟨_, _, _, _, _, hbinds⟩ := hfaithful.mirrored.behind
    exact hfaithful.onward hmirrored (Transport.onward_apply hfaithful.announcing hagrees
      (Transport.flushesUnder_of_unsteady _ op) (fun _ => hbinds.taken.ne) hother)

/-- The publisher finds the subscriber's frame honest. -/
theorem bound_of_unsubscribe (hfaithful : d.Faithful) (hc : d.conn? = some c)
    (hframe : d.subscriber.control[d.read]? = some frame)
    (hmessage : frame.message = .unsubscribe a track) :
    c.sendSubscriptions.findByAlias a = some track := by
  obtain ⟨limit, bindings, hlogged, hbehind, _, hbinds⟩ := hfaithful.mirrored.behind
  have hnext : (d.subscriber.control.map Sent.message)[d.read]? = some frame.message := by
    rw [List.getElem?_map, hframe]
    rfl
  obtain ⟨next, hstep, _⟩ := replay_next hlogged.replayed hbehind hnext
  rw [hmessage, ← (hbinds.conn c hc).1] at hstep
  exact (SubscriptionTable.remove_of_step hstep).1

theorem deliver (hfaithful : d.Faithful) (hroom : d.RoomToRejoin) (env : RepairEnv) :
    Proceeds d (d.apply (.deliver env)) := by
  have hmirrored := hfaithful.mirrored.deliver env
  have happlied : d.apply (.deliver env) = { d with toSession := d.toSession.deliver env } := rfl
  rw [happlied]
  unfold Session.deliver at hmirrored ⊢
  split
  · next c frame hc hframe =>
      rw [hc, hframe] at hmirrored
      simp only at hmirrored
      split
      · exact hfaithful.stays
      · next hopen =>
          rw [if_neg hopen] at hmirrored
          have hopen : c.closed = none := by simpa using hopen
          refine hfaithful.onward hmirrored (Transport.onward_receive hfaithful.announcing hc env
            frame.message (fun a track hmessage => ?_) fun a track hmessage _ hbound hacked => ?_)
          · exact hfaithful.bound_of_unsubscribe hc hframe hmessage
          · have hready := hroom c hc hopen frame hframe
            rw [hmessage] at hready
            exact hready hbound hacked
  · exact hfaithful.stays

/-- The subscriber moves on. -/
theorem answers {subscriber : Conn} {heard : Nat} (hfaithful : d.Faithful)
    (hmirrored : Session.Mirrored { d.toSession with subscriber := subscriber })
    (hanswering : subscriber.Answering d.publisher.HasAnnounced
      d.subscriber.negotiatedLimits.maxSubscriptionsPerConnection) :
    Proceeds d { d with subscriber := subscriber, heard := heard } where
  faithful := by
    refine ⟨hmirrored, hfaithful.announcing, ?_⟩
    rw [← hanswering.logged.limit_eq] at hanswering
    exact hanswering
  acks c hc := ⟨c, hc, Conn.acksGrow_of_same fun _ => rfl⟩

theorem subscribe (hfaithful : d.Faithful) (op : Conn.ReceiveOp) :
    Proceeds d (d.apply (.subscriber op)) := by
  have hmirrored := hfaithful.mirrored.subscriber op
  have happlied : d.apply (.subscriber op) = d.subscribe op := rfl
  rw [happlied]
  unfold Dialogue.subscribe
  split
  · exact hfaithful.stays
  · exact hfaithful.stays
  · next hcheckpoint hend =>
      exact hfaithful.answers hmirrored
        (hfaithful.answering.receive d.limits hcheckpoint hend)

/-- The subscriber hears a recovery frame that it understands. -/
theorem recovered (hfaithful : d.Faithful) {op : Conn.ReceiveOp} {heard : Nat}
    (hanswers : Conn.Answers d.publisher.HasAnnounced d.subscriber
      (d.subscriber.receive d.limits op)) :
    Proceeds d { d with
      subscriber := d.subscriber.receive d.limits op
      heard := heard } :=
  hfaithful.answers (hfaithful.mirrored.subscriber op)
    (hfaithful.answering.answers (hfaithful.answering.logged.receive d.limits op) hanswers)

theorem hear (hfaithful : d.Faithful) (hunderstood : d.Understood) :
    Proceeds d (d.apply .hear) := by
  have happlied : d.apply .hear = d.hear := rfl
  rw [happlied]
  unfold Dialogue.hear
  split
  · exact hfaithful.stays
  next frame hnext =>
  obtain ⟨c, hc, hframe⟩ := Option.bind_eq_some_iff.mp hnext
  have hplain : ∀ announcement, frame.message.announcement = some announcement →
      announcement.groupId = 0 := by
    intro announcement hsaid
    refine ((hfaithful.announcing.conn c hc).announces.plain frame.track announcement ?_).groupId
    exact List.mem_filterMap.mpr ⟨frame, List.mem_of_getElem? hframe, by rw [if_pos rfl, hsaid]⟩
  have hcovers : ∀ a groupId finalObjectId,
      frame.message.announces = some (a, finalObjectId) → groupId = 0 →
      ∀ track, d.subscriber.recoveryTrack a = some track →
        d.publisher.HasAnnounced track groupId finalObjectId := by
    intro a groupId finalObjectId hannounces hgroup track htrack
    obtain ⟨last, hlast, hreached⟩ := hunderstood frame hnext _ hannounces track htrack
    have hmark := hfaithful.announcing.marked.mark_eq hlast
    refine ⟨(Conn.bound_of_recoveryTrack htrack).2, hgroup, last.objectId, ?_, hreached⟩
    rw [← hmark]
    exact hlast
  split
  · next checkpoint hmessage =>
      rw [hmessage] at hplain hcovers
      exact hfaithful.recovered (Conn.answers_receiveRecoveryFrame hfaithful.answering.covered
        (·.receiveTrackCheckpoint checkpoint)
        (Conn.answers_receiveTrackCheckpoint hfaithful.answering.covered checkpoint
          (hcovers _ _ _ rfl (hplain _ rfl))))
  · next finish hmessage =>
      rw [hmessage] at hplain hcovers
      exact hfaithful.recovered (Conn.answers_receiveRecoveryFrame hfaithful.answering.covered
        (·.receiveTrackEnd finish)
        (Conn.answers_receiveTrackEnd hfaithful.answering.covered finish
          (hcovers _ _ _ rfl (hplain _ rfl))))
  · exact ⟨⟨hfaithful.mirrored, hfaithful.announcing, hfaithful.answering⟩,
      hfaithful.stays.acks⟩

theorem apply (hfaithful : d.Faithful) {op : Op} (hheeds : op.heeds d) :
    Proceeds d (d.apply op) := by
  cases op with
  | publisher op => exact hfaithful.publish hheeds
  | subscriber op => exact hfaithful.subscribe op
  | deliver env => exact hfaithful.deliver hheeds env
  | hear => exact hfaithful.hear hheeds

theorem run (hfaithful : d.Faithful) {ops : List Op}
    (halong : Machine.Along Dialogue.apply (fun d op => op.heeds d) d ops) :
    (d.run ops).Faithful :=
  Machine.invariant_run (fun _ _ hfaithful hheeds => (hfaithful.apply hheeds).faithful)
    hfaithful halong

/-- The next ACK in flight is taken. -/
theorem takes {ack : TrackCheckpointAck} (hfaithful : d.Faithful) (hc : d.conn? = some c)
    (hopen : c.closed = none)
    (hframe : d.subscriber.control[d.read]? = some frame)
    (hmessage : frame.message = .trackCheckpointAck ack) :
    d.publisher.refusesAck c ack = false := by
  obtain ⟨limit, bindings, hlogged, hbehind, _, hbinds⟩ := hfaithful.mirrored.behind
  have hsent : (d.subscriber.control.map Sent.message)[d.read]? = some frame.message := by
    rw [List.getElem?_map, hframe]
    rfl
  have hanswered := hfaithful.answering.answered
  rw [hlogged.limit_eq] at hanswered
  obtain ⟨track, hbound, hrateless, hgroup, last, hmark, hreached⟩ :=
    hanswered d.read frame.message bindings hsent hbehind ack hmessage
  rw [← (hbinds.conn c hc).1] at hbound
  have hattends := (hfaithful.announcing.conn c hc).attends hopen
  have hmember := hattends.tracks _ track hbound hrateless
  have hstate := hmember.sent.trans hmark
  have hunderstood : ¬ last < ack.finalObjectId := by omega
  unfold Transport.refusesAck
  rw [hbound, Option.filter_some, if_pos hrateless]
  simp only
  unfold Transport.checkpointAcked
  simp [hattends.capable, hstate, hmember.participating, hgroup, hunderstood]

/-- A connection that was greeted and has written nothing. -/
theorem attentive_start (steady : Prop) (mark : TrackId → Option Watermark) (connId : Nat)
    (limits other : TransportLimits) :
    (((Conn.init connId limits).receiveHello limits (Transport.helloFor other)).respondAuth
      true).Attentive steady mark := by
  rw [Session.handshake_init]
  refine ⟨⟨fun track => List.isChain_nil, fun track said hsaid => ?_, fun track said hsaid => ?_⟩,
    ⟨fun a acked hacked => ?_, fun a acked hacked => ?_⟩, fun _ => ⟨rfl, rfl, ?_, ?_⟩⟩
  · cases hsaid
  · cases hsaid
  · cases hacked
  · cases hacked
  · simp only [Conn.checkpointCapable, Conn.hasCapability, Transport.helloFor]
    decide
  · intro a track hbound
    cases hbound

theorem start {t : Transport} (hfresh : t.Fresh)
    (hannouncing : t.Announcing False t.nextConnId) (limits : TransportLimits) :
    (Dialogue.start t limits).Faithful where
  mirrored := Session.Mirrored.start hfresh limits
  announcing := by
    refine ⟨hannouncing.marked.congr rfl, hannouncing.grouped, fun c hc => ?_⟩
    have hfound := (Session.lookup_start hfresh limits).symm.trans hc
    obtain rfl := Option.some.inj hfound
    exact attentive_start _ _ _ _ _
  answering := by
    obtain ⟨limit, _, hlogged, _⟩ := (Session.Mirrored.start hfresh limits).behind
    have hlimit := hlogged.limit_eq
    subst hlimit
    have hsubscriber : (Dialogue.start t limits).subscriber = _ :=
      Session.handshake_init 0 limits t.limits
    refine ⟨hlogged, ?_, fun a track hbound => ?_⟩
    · rw [hsubscriber]
      exact answered_nil
    · rw [hsubscriber] at hbound
      cases hbound

end Faithful

/-! ### One record of a track -/

def meterTrack : TrackId where
  type := .data
  flags := flagFecRateless
  name := [109]

def gaugeTrack : TrackId where
  type := .data
  flags := flagFecRateless
  name := [103]

def reading : MoqObject where
  trackId := meterTrack
  groupId := 0
  objectId := 0
  data := [1]

/-- A track of one record is subscribed to and finished. -/
def metered : List Op :=
  [.subscriber (.subscribe meterTrack), .deliver Transport.quietRepair,
    .publisher (.publish Transport.quietPublish reading),
    .publisher (.finish Transport.quietFlush meterTrack)]

/-- The record, in the datagram it was published with. -/
def readingArrives : Op :=
  .subscriber (.datagram Conn.quietReceive (Conn.singleSymbol meterTrack 8 0 0 [0, 1, 1]))

/-- Whatever is subscribed, left and announced meanwhile, as long as every recovery frame
is understood: no ACK is refused, none reaches behind what was sent, none is taken back. -/
theorem acks_accepted (isServer : Bool) (limits : TransportLimits) (maxRecoveryCacheBytes : Nat)
    (earlier : List Transport.Op) (subscriberLimits : TransportLimits) (ops : List Op)
    (hheeds : Machine.Along apply (fun d op => op.heeds d)
      (start ((Transport.init isServer limits maxRecoveryCacheBytes).run earlier)
        subscriberLimits) ops) :
    let d := (start ((Transport.init isServer limits maxRecoveryCacheBytes).run earlier)
      subscriberLimits).run ops
    ∀ c ∈ d.conn?,
      (c.closed = none → ∀ frame ∈ d.subscriber.control[d.read]?, ∀ ack,
        frame.message = .trackCheckpointAck ack → d.publisher.refusesAck c ack = false) ∧
      (∀ a, ∀ acked ∈ (c.checkpointAck a).acked,
        ∃ sent ∈ (c.checkpointAck a).sent, acked.objectId ≤ sent.objectId) ∧
      ∀ op : Op, op.heeds d → ∀ c' ∈ (d.apply op).conn?, ∀ a track,
        c.sendSubscriptions.findByAlias a = some track →
        c'.sendSubscriptions.findByAlias a = some track →
        ∀ acked ∈ (c.checkpointAck a).acked,
          ∃ later ∈ (c'.checkpointAck a).acked, acked.objectId ≤ later.objectId := by
  intro d c hc
  have hfresh := (Transport.fresh_init isServer limits maxRecoveryCacheBytes).run earlier
  have hannouncing := Transport.announcing_run_absent
    (Transport.fresh_init isServer limits maxRecoveryCacheBytes)
    (Transport.announcing_init isServer limits maxRecoveryCacheBytes) earlier
  have hfaithful : d.Faithful := (Faithful.start hfresh hannouncing subscriberLimits).run hheeds
  refine ⟨fun hopen frame hframe ack hmessage => hfaithful.takes hc hopen hframe hmessage,
    (hfaithful.announcing.conn c hc).within.reached, fun op hheeds c' hc' => ?_⟩
  obtain ⟨found, hfound, hgrows⟩ := (hfaithful.apply hheeds).acks c' hc'
  obtain rfl := Option.some.inj (hc.symm.trans hfound)
  exact hgrows

theorem acks_accepted_metered :
    let d := (start ((Transport.init true defaultLimits defaultRecoveryCacheBytes).run [])
      defaultLimits).run (metered ++ [.hear, readingArrives])
    d.subscriber.control[d.read]?.map Sent.message =
        some (.trackCheckpointAck { trackAlias := 8, groupId := 0, finalObjectId := 0 }) ∧
      d.conn?.map (fun c => d.publisher.refusesAck c
        { trackAlias := 8, groupId := 0, finalObjectId := 0 }) = some false := by
  have haccepted := acks_accepted true defaultLimits defaultRecoveryCacheBytes [] defaultLimits
    (metered ++ [.hear, readingArrives]) (by decide +kernel)
  intro d
  have hfacts : d.subscriber.control[d.read]?.map Sent.message =
      some (.trackCheckpointAck { trackAlias := 8, groupId := 0, finalObjectId := 0 }) ∧
      d.conn?.map Conn.closed = some none := by decide +kernel
  have hd : (start ((Transport.init true defaultLimits defaultRecoveryCacheBytes).run [])
      defaultLimits).run (metered ++ [.hear, readingArrives]) = d := rfl
  rw [hd] at haccepted
  clear_value d
  obtain ⟨frame, hframe, hmessage⟩ := Option.map_eq_some_iff.mp hfacts.1
  obtain ⟨c, hc, hopen⟩ := Option.map_eq_some_iff.mp hfacts.2
  have htaken := (haccepted c hc).1 hopen frame hframe _ hmessage
  exact ⟨hfacts.1, by rw [hc, Option.map_some, htaken]⟩

/-- The track's end is heard under an alias that meanwhile names another track. -/
theorem ack_refused_elsewhere :
    let d := (start Transport.server defaultLimits).run (metered ++
      [.subscriber (.unsubscribe meterTrack), .subscriber (.subscribe gaugeTrack), .hear,
        readingArrives, .deliver Transport.quietRepair, .deliver Transport.quietRepair])
    d.subscriber.control[d.read]?.map Sent.message =
        some (.trackCheckpointAck { trackAlias := 8, groupId := 0, finalObjectId := 0 }) ∧
      d.conn?.map Conn.closed = some none ∧
      d.conn?.map (fun c => d.publisher.refusesAck c
        { trackAlias := 8, groupId := 0, finalObjectId := 0 }) = some true ∧
      (d.apply (.deliver Transport.quietRepair)).conn?.map Conn.closed =
        some (some ⟨.protocol, "protocol error: invalid recovery checkpoint ACK"⟩) := by
  decide +kernel

end Dialogue

end Qlinq
