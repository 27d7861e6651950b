import Qlinq.FacadeSound
import Qlinq.Lib.Totals

namespace Qlinq

/-! What the streams of an endpoint count, against the events that were queued. -/

open Totals

/-- A count that an endpoint keeps, and the events that it counts: the records that its streams
receive, or the reports that one is writable. -/
structure EndpointMeter where
  index : Nat
  measure : ServedEndpoint → Nat
  counts : QlinqEvent → Bool
  fresh : measure {} = 0
  submitted : ∀ e, measure e.submit = measure e
  ticked : ∀ e nowMs, measure (ServedEndpoint.startTick e nowMs) = measure e
  added : ∀ e profile direction,
    measure (ServedEndpoint.addStream e profile direction) = measure e
  closed : ∀ e id, measure (ServedEndpoint.changeStream e id (·.close)) = measure e
  closed_all : ∀ e, measure e.closeStreams = measure e
  lost : ∀ e id, measure (ServedEndpoint.changeStream e id (·.lose)) = measure e
  sent : ∀ e id result, measure (ServedEndpoint.changeStream e id (·.send result)) = measure e
  received : ∀ (e : ServedEndpoint) (stream : QlinqStream) (event : QlinqEvent)
    (track : TrackId), StreamKey.Table e.keys → e.findStream track .subscribe = some stream →
    event.type = .record → event.endpoint = index → event.track = some track →
    measure (({ e with recordsReceived := e.recordsReceived + 1 } : ServedEndpoint).changeStream
      stream.id (·.receive)) = measure e + (counts event).toNat
  refreshed : ∀ (e : ServedEndpoint) callocs ready events,
    measure { e with streams := (refreshStreams index callocs ready e.streams events).1 } +
        events.accepted.countP counts =
      measure e + (refreshStreams index callocs ready e.streams events).2.accepted.countP counts
  plain : ∀ event, QlinqContext.Plain event → counts event = false
  elsewhere : ∀ event : QlinqEvent, event.endpoint ≠ index → counts event = false

/-- Where the reports of an endpoint do not count, a refresh counts for nothing. -/
theorem countP_refreshStreams {index : Nat} {counts : QlinqEvent → Bool}
    (hnone : ∀ track, counts { type := .streamWritable, endpoint := index, track := some track } =
      false) (callocs : Callocs) (ready : Nat → Bool) (streams : List QlinqStream)
    (events : EventList) :
    (refreshStreams index callocs ready streams events).2.accepted.countP counts =
      events.accepted.countP counts := by
  induction streams generalizing events with
  | nil => rfl
  | cons stream rest ih =>
      simp only [refreshStreams, ih]
      split
      · unfold QlinqStream.refresh
        extract_lets becameWritable seen
        split
        · rfl
        have haccepted := events.accepted_queueEvent callocs
          { type := .streamWritable, endpoint := index, track := some stream.track }
        split
        next after taken hevent =>
        rw [hevent] at haccepted
        have hcount : after.accepted.countP counts = events.accepted.countP counts := by
          rw [haccepted, List.countP_append]
          split
          · simp [hnone]
          · rfl
        split
        · exact hcount
        · exact hcount
      · rfl

/-- What each stream keeps of such a count. -/
structure StreamMeter where
  index : Nat
  weight : QlinqStream → Nat
  counts : QlinqEvent → Bool
  added : ∀ id profile direction,
    weight { id := id, profile := profile, direction := direction } = 0
  closed : ∀ stream, weight stream.close = weight stream
  lost : ∀ stream, weight stream.lose = weight stream
  sent : ∀ stream result, weight (QlinqStream.send stream result) = weight stream
  received : ∀ (stream : QlinqStream) (event : QlinqEvent) (track : TrackId),
    event.type = .record → event.endpoint = index → event.track = some track →
    stream.profile.isFor track = true →
    weight stream.receive = weight stream + (counts event).toNat
  refreshed : ∀ (stream : QlinqStream) known last signal,
    weight { stream with
      writableKnown := known, lastWritable := last, signals := stream.signals ++ [signal] } =
    weight stream + if signal = .reported then
      (counts { type := .streamWritable, endpoint := index, track := some stream.track }).toNat
    else 0
  plain : ∀ event, QlinqContext.Plain event → counts event = false
  elsewhere : ∀ event : QlinqEvent, event.endpoint ≠ index → counts event = false

namespace StreamMeter

variable (m : StreamMeter)

theorem total_changeStream (e : ServedEndpoint) (id : Nat) {change : QlinqStream → QlinqStream}
    (hsame : ∀ stream, m.weight (change stream) = m.weight stream) :
    total m.weight (e.changeStream id change).streams = total m.weight e.streams := by
  apply total_map_same
  intro stream
  split
  · exact hsame stream
  · rfl

/-- A record is counted by the stream that it is for. -/
theorem total_receive {e : ServedEndpoint} (htable : StreamKey.Table e.keys)
    (hfind : e.findStream track .subscribe = some stream) (event : QlinqEvent)
    (htype : event.type = .record) (hendpoint : event.endpoint = m.index)
    (htrack : event.track = some track) :
    total m.weight (e.changeStream stream.id (·.receive)).streams =
      total m.weight e.streams + (m.counts event).toNat := by
  obtain ⟨hmem, -, -, hfor⟩ := ServedEndpoint.findStream_mem hfind
  have hunique : (e.streams.map (·.id)).Nodup := by
    have hnodup := htable.nodup
    rwa [ServedEndpoint.keys, List.map_map] at hnodup
  have htotal := total_map_key m.weight (·.id) (·.receive) hunique hmem
  rw [m.received stream event track htype hendpoint htrack hfor] at htotal
  unfold ServedEndpoint.changeStream
  simp only at htotal ⊢
  omega

/-- A stream that is looked at counts the report that is queued of it. -/
theorem weight_refresh (stream : QlinqStream) (index : Nat) (callocs : Callocs) (writable : Bool)
    (events : EventList) (hindex : index = m.index) :
    m.weight (stream.refresh index callocs writable events).1 +
        events.accepted.countP m.counts =
      m.weight stream +
        (stream.refresh index callocs writable events).2.accepted.countP m.counts := by
  unfold QlinqStream.refresh
  extract_lets becameWritable seen
  split
  · rw [show m.weight _ = _ from m.refreshed stream true writable _]
    cases writable <;> rfl
  have haccepted := events.accepted_queueEvent callocs
    { type := .streamWritable, endpoint := index, track := some stream.track }
  split
  next after taken hevent =>
  rw [hevent] at haccepted
  simp only at haccepted
  subst hindex
  split
  · next htaken =>
      rw [show m.weight _ = _ from m.refreshed stream true writable .reported, haccepted,
        if_pos rfl, if_pos htaken, List.countP_append, List.countP_singleton, Nat.add_assoc,
        Nat.add_comm (Bool.toNat _)]
      generalize m.counts _ = counted
      cases counted with
      | false => rfl
      | true => rfl
  · next hrefused =>
      rw [show m.weight _ = _ from m.refreshed stream false writable .refused, haccepted,
        if_neg hrefused, List.append_nil]
      rfl

theorem total_refreshStreams (index : Nat) (hindex : index = m.index) (callocs : Callocs)
    (ready : Nat → Bool) (streams : List QlinqStream) (events : EventList) :
    total m.weight (refreshStreams index callocs ready streams events).1 +
        events.accepted.countP m.counts =
      total m.weight streams +
        (refreshStreams index callocs ready streams events).2.accepted.countP m.counts := by
  induction streams generalizing events with
  | nil => rfl
  | cons stream rest ih =>
      simp only [refreshStreams, total_cons]
      split
      · have hhere := m.weight_refresh stream index callocs (ready stream.id) events hindex
        have hrest := ih (stream.refresh index callocs (ready stream.id) events).2
        omega
      · have hrest := ih events
        simp only
        omega

/-- The streams' counts in total. -/
def sum : EndpointMeter where
  index := m.index
  measure e := Totals.total m.weight e.streams
  counts := m.counts
  fresh := rfl
  submitted := fun _ => rfl
  ticked := fun _ _ => rfl
  added := by
    intro e profile direction
    change Totals.total m.weight ({ id := _, profile := profile, direction := direction } :: _) = _
    rw [total_cons, m.added, Nat.zero_add]
  closed := fun e id => m.total_changeStream e id m.closed
  closed_all := fun e => total_map_same m.weight m.closed e.streams
  lost := fun e id => m.total_changeStream e id m.lost
  sent := fun e id result => m.total_changeStream e id fun stream => m.sent stream result
  received := fun e _ event _ htable hfind htype hendpoint htrack =>
    m.total_receive (e := { e with recordsReceived := e.recordsReceived + 1 }) htable hfind event
      htype hendpoint htrack
  refreshed := fun e callocs ready events => m.total_refreshStreams m.index rfl callocs ready
    e.streams events
  plain := m.plain
  elsewhere := m.elsewhere

end StreamMeter

namespace EndpointMeter

variable {f g h : Facade} {index : Nat} {endpoint : QlinqEndpoint} {callocs : Callocs}

/-- As much is added to the streams' counts as there are events queued. -/
def Balanced (m : EndpointMeter) (f g : Facade) : Prop :=
  m.measure (g.served m.index) + f.context.events.accepted.countP m.counts =
    m.measure (f.served m.index) + g.context.events.accepted.countP m.counts

/-- The streams have counted what was queued. -/
def Holds (m : EndpointMeter) (f : Facade) : Prop :=
  m.measure (f.served m.index) = f.context.events.accepted.countP m.counts

variable (m : EndpointMeter)

theorem Balanced.holds {m : EndpointMeter} (hbalanced : m.Balanced f g) (hholds : m.Holds f) :
    m.Holds g := by
  unfold Balanced Holds at *
  omega

theorem Balanced.trans {m : EndpointMeter} (hfirst : m.Balanced f g) (hsecond : m.Balanced g h) :
    m.Balanced f h := by
  unfold Balanced at *
  omega

theorem holds_create (limits : EventLimits) : m.Holds (Facade.create limits) :=
  m.fresh

theorem countP_tells {c c' : QlinqContext} (htells : QlinqContext.Tells QlinqContext.Plain c c') :
    c'.events.accepted.countP m.counts = c.events.accepted.countP m.counts := by
  obtain ⟨told, haccepted, hplain⟩ := htells.accepted
  have hnone : told.countP m.counts = 0 := by
    rw [List.countP_eq_zero]
    intro event hevent
    simp [m.plain event (hplain event hevent)]
  rw [haccepted, List.countP_append, hnone, Nat.add_zero]

theorem balanced_tells {context : QlinqContext}
    (htells : QlinqContext.Tells QlinqContext.Plain f.context context) :
    m.Balanced f { f with context := context } :=
  congrArg (m.measure (f.served m.index) + ·) (m.countP_tells htells).symm

/-- A change of the streams that none of them counts. -/
theorem balanced_change (f : Facade) (index : Nat) {update : ServedEndpoint → ServedEndpoint}
    (hsame : m.measure (update (f.served index)) =
      m.measure (f.served index)) : m.Balanced f (f.change index update) := by
  unfold Balanced
  cases decEq m.index index with
  | isTrue heq => rw [heq, Facade.served_change_self, hsame, Facade.context_change]
  | isFalse hne => rw [Facade.served_change_of_ne hne, Facade.context_change]

/-! ### Steps of a service -/

/-- What the loop over an object's records keeps, for the endpoint that it is at. -/
def Counting (index : Nat) (keys : List StreamKey) (start : Nat)
    (s : EventList × ServedEndpoint) : Prop :=
  s.2.keys = keys ∧
    (if index = m.index then m.measure s.2 else start) =
      s.1.accepted.countP m.counts

theorem counting_queueRecord {keys : List StreamKey} (htable : StreamKey.Table keys)
    (start : Nat) (f : Facade) (callocs : Callocs) (index : Nat) (conn : PeerConn)
    (track : TrackId) (info : RecordInfo) (s : EventList × ServedEndpoint) (data : Bytes)
    (queued : EventList × ServedEndpoint) (hcounting : m.Counting index keys start s)
    (hqueued : f.queueRecord callocs index conn track info s data = some queued) :
    m.Counting index keys start queued := by
  obtain ⟨hkeys, hcounted⟩ := hcounting
  unfold Facade.queueRecord at hqueued
  split at hqueued
  · cases hqueued
    exact ⟨hkeys, hcounted⟩
  next stream hfind =>
  split at hqueued
  · cases hqueued
    exact ⟨hkeys, hcounted⟩
  split at hqueued
  next events accepted hevent =>
  have haccepted := s.1.accepted_queueEvent callocs
    { type := .record, endpoint := index, peerId := f.context.peerId index conn
      track := some track, groupId := info.groupId, sequence := info.objectId
      isKeyframe := info.isKeyframe, priority := info.priority, payload := data }
  rw [hevent] at haccepted
  split at hqueued
  · next htaken =>
      cases hqueued
      refine ⟨(ServedEndpoint.keys_changeStream { s.2 with recordsReceived := _ } stream.id
        fun stream => (rfl : stream.receive.key = stream.key)).trans hkeys, ?_⟩
      simp only [htaken, ↓reduceIte] at haccepted
      rw [haccepted, List.countP_append, ← hcounted, List.countP_singleton]
      split
      · next heq =>
          have hreceived := m.received s.2 stream
            { type := .record, endpoint := index, peerId := f.context.peerId index conn
              track := some track, groupId := info.groupId, sequence := info.objectId
              isKeyframe := info.isKeyframe, priority := info.priority, payload := data }
            track (hkeys ▸ htable) hfind rfl heq rfl
          rw [hreceived]
          generalize m.counts _ = counted
          cases counted with
          | false => rfl
          | true => rfl
      · next hne =>
          rw [m.elsewhere _ hne]
          rfl
  · cases hqueued

theorem holds_queueObject (hsound : f.Sound) (hholds : m.Holds f) (callocs report : Callocs)
    (index : Nat) (conn : PeerConn) (track : TrackId) (info : RecordInfo) (data : Bytes) :
    m.Holds (f.queueObject callocs report index conn track info data) := by
  have hcounting : m.Counting index (f.served index).keys
      (f.context.events.accepted.countP m.counts) (queueReceivedObject
        (f.queueRecord callocs index conn track info) (f.context.events, f.served index) track
        data).1 := by
    apply QlinqContext.queueReceivedObject_keeps
      (m.counting_queueRecord (hsound.table index) _ f callocs index conn track info)
    refine ⟨rfl, ?_⟩
    split
    · next heq => exact heq ▸ hholds
    · rfl
  unfold Facade.queueObject
  generalize queueReceivedObject (f.queueRecord callocs index conn track info)
    (f.context.events, f.served index) track data = looped at hcounting
  obtain ⟨⟨events, e⟩, outcome⟩ := looped
  obtain ⟨-, hcounted⟩ := hcounting
  have hlooped : m.Holds { f with
      served := Function.update f.served index e
      context := { f.context with events := events } } := by
    change m.measure (Function.update f.served index e m.index) =
      events.accepted.countP m.counts
    split at hcounted
    · next heq =>
        subst heq
        rw [Function.update_self]
        exact hcounted
    · next hne =>
        rw [Function.update_of_ne (Ne.symm hne)]
        exact hholds.trans hcounted
  cases outcome with
  | complete => exact hlooped
  | malformedPayload =>
      exact (m.balanced_tells (QlinqContext.tells_postError _ report index _ _
        QlinqContext.plain_of_error)).holds hlooped
  | malformedLength =>
      exact (m.balanced_tells (QlinqContext.tells_postError _ report index _ _
        QlinqContext.plain_of_error)).holds hlooped
  | unqueued =>
      exact (m.balanced_tells (QlinqContext.tells_rejectReceivedRecord _ report index conn
        track)).holds hlooped

theorem holds_handle (hsound : f.Sound) (hholds : m.Holds f)
    (index : Nat) (endpoint : QlinqEndpoint) (report : TransportReport) :
    m.Holds (f.handle index endpoint report) := by
  obtain ⟨event, callocs, spare⟩ := report
  have htold (hobject : ∀ conn track info data, event ≠ .object conn track info data) :=
    m.balanced_tells (QlinqContext.tells_handle f.context callocs spare index endpoint hobject)
  cases event with
  | object conn track info data =>
      exact m.holds_queueObject hsound hholds callocs spare index conn track info data
  | objectLost conn track info =>
      have hlost : m.Balanced f (f.change index (·.loseObject track)) := by
        apply m.balanced_change
        unfold ServedEndpoint.loseObject
        split
        · rfl
        · exact m.lost _ _
      exact (hlost.trans (m.balanced_tells (QlinqContext.tells_handle f.context callocs spare index
        endpoint (by simp)))).holds hholds
  | connected conn sendsAuth => exact (htold (by simp)).holds hholds
  | auth conn token responds subscribes => exact (htold (by simp)).holds hholds
  | authComplete conn success subscribes => exact (htold (by simp)).holds hholds
  | disconnected conn info reason => exact (htold (by simp)).holds hholds
  | subscribe conn track => exact (htold (by simp)).holds hholds
  | unsubscribe conn track => exact (htold (by simp)).holds hholds
  | keyframeRequest conn track => exact (htold (by simp)).holds hholds

theorem balanced_refreshEndpoint (f : Facade) (callocs : Callocs) (ready : Nat → Nat → Bool)
    (index : Nat) : m.Balanced f (f.refreshEndpoint callocs ready index) := by
  unfold Facade.refreshEndpoint
  split
  · unfold Balanced
    simp only
    cases decEq m.index index with
    | isTrue heq =>
        rw [heq, Facade.served_change_self]
        exact heq ▸ m.refreshed (f.served m.index) callocs (ready m.index) _
    | isFalse hne =>
        rw [Facade.served_change_of_ne hne,
          countP_refreshStreams fun _ => m.elsewhere _ (Ne.symm hne)]
  · rfl

theorem steps_holds : Facade.Steps fun f => f.Sound ∧ m.Holds f where
  status := fun f status hinv => ⟨Facade.steps_sound.status f status hinv.1, hinv.2⟩
  tick := fun f index nowMs hinv => ⟨Facade.steps_sound.tick f index nowMs hinv.1,
    (m.balanced_change f index (m.ticked _ nowMs)).holds hinv.2⟩
  report := fun f index endpoint report hinv hendpoint hactive =>
    ⟨Facade.steps_sound.report f index endpoint report hinv.1 hendpoint hactive,
      m.holds_handle hinv.1 hinv.2 index endpoint report⟩
  refresh := fun f index callocs ready hinv hactive =>
    ⟨Facade.steps_sound.refresh f index callocs ready hinv.1 hactive,
      (m.balanced_refreshEndpoint f callocs ready index).holds hinv.2⟩
  grow := fun f capacity hinv => ⟨Facade.steps_sound.grow f capacity hinv.1, hinv.2⟩

/-! ### Calls of the application -/

theorem balanced_openStream (hsound : f.Sound) (callocs : Callocs) (index : Nat)
    (profile : SubscribedStream) (direction : StreamDirection) (allocates : Bool)
    (subscribes : PeerState → Bool) :
    m.Balanced f (f.openStream callocs index profile direction allocates subscribes) := by
  unfold Facade.openStream
  split
  · rfl
  next endpoint hendpoint =>
  split
  · rfl
  split
  · rfl
  next hholds =>
  split
  · rfl
  extract_lets added
  have hadded : m.Balanced f added := by
    apply m.balanced_change
    rw [m.submitted, m.added]
  cases direction with
  | publish => exact hadded
  | subscribe =>
      have hnone := Facade.unsubscribed_of_not_holds hsound hendpoint (by simpa using hholds)
      have htells := QlinqContext.tells_openStream f.context callocs index endpoint profile
        subscribes hnone
      have htold : m.Balanced added { added with
          context := f.context.openStream callocs index endpoint profile subscribes } :=
        congrArg (m.measure (added.served m.index) + ·)
          (m.countP_tells htells).symm
      simp only
      split
      · exact hadded.trans htold
      · exact hadded.trans htold

theorem balanced_closeStream (f : Facade) (index id : Nat) :
    m.Balanced f (f.closeStream index id) := by
  unfold Facade.closeStream
  split
  · rfl
  next stream hfind =>
  split
  · rfl
  extract_lets closed
  have hclosed : m.Balanced f closed :=
    m.balanced_change f index ((m.submitted _).trans (m.closed _ id))
  split
  · exact hclosed
  · refine hclosed.trans (congrArg (m.measure (closed.served m.index) + ·) ?_)
    simp only [QlinqContext.apply, QlinqContext.atEndpoint]
    split
    · rfl
    · split
      · rfl
      · rfl

theorem balanced_closeEndpoint (f : Facade) (index : Nat) :
    m.Balanced f (f.closeEndpoint index) := by
  unfold Facade.closeEndpoint
  split
  · have hclosed : m.Balanced f (f.change index (·.closeStreams)) :=
      m.balanced_change f index (m.closed_all _)
    refine hclosed.trans (congrArg
      (m.measure ((f.change index (·.closeStreams)).served m.index) + ·) ?_)
    simp only [QlinqContext.apply, QlinqContext.atEndpoint]
    split
    · rfl
    · split
      · rfl
      · rfl
  · rfl

theorem holds_apply (hsound : f.Sound) (hholds : m.Holds f) (op : Facade.Op) :
    m.Holds (f.apply op) := by
  cases op with
  | openEndpoint listener sharedSecret =>
      have hentered : m.Balanced f { f with
          context := f.context.apply (.openEndpoint f.opened listener sharedSecret)
          opened := f.opened + 1 } := by
        unfold Balanced
        simp only [QlinqContext.apply]
        split
        · rfl
        · rfl
      exact (hentered.trans (m.balanced_change _ f.opened (m.submitted _))).holds hholds
  | openStream index profile direction callocs allocates subscribes =>
      exact (m.balanced_openStream hsound callocs index profile direction allocates
        subscribes).holds hholds
  | closeStream index id => exact (m.balanced_closeStream f index id).holds hholds
  | closeEndpoint index => exact (m.balanced_closeEndpoint f index).holds hholds
  | submitWork index status =>
      simp only [Facade.apply, Facade.submitWork]
      split
      · exact (m.balanced_change f index (m.submitted _)).holds hholds
      · exact hholds
  | sendRecord index id answer =>
      simp only [Facade.apply, Facade.sendRecord]
      split
      · exact hholds
      split
      · exact hholds
      · have hsent : m.Balanced f
            (f.change index fun e => e.submit.changeStream id (·.send (mapSendResult answer))) :=
          m.balanced_change f index ((m.sent _ id (mapSendResult answer)).trans (m.submitted _))
        exact hsent.holds hholds
  | service env => exact ((m.steps_holds).service ⟨hsound, hholds⟩ env).2
  | nextEvent =>
      simp only [Facade.apply, QlinqContext.apply]
      unfold EventList.nextEvent
      split
      · exact hholds
      · exact hholds
  | releaseEvent address =>
      simp only [Facade.apply, QlinqContext.apply]
      unfold EventList.releaseEvent
      split
      · exact hholds
      · exact hholds

theorem holds_run (limits : EventLimits) (ops : List Facade.Op) :
    m.Holds (Facade.run limits ops) := by
  have hstep : ∀ (f : Facade) (op : Facade.Op), f.Sound ∧ m.Holds f → True →
      (f.apply op).Sound ∧ m.Holds (f.apply op) := fun f op hinv _ =>
    ⟨Facade.sound_apply hinv.1 op, m.holds_apply hinv.1 hinv.2 op⟩
  exact (Machine.invariant_run hstep
    ⟨Facade.sound_create limits, m.holds_create limits⟩ (Machine.along_true _ ops)).2

end EndpointMeter

end Qlinq
