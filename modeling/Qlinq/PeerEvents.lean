import Qlinq.EventList
import Qlinq.Lib.Machine

namespace Qlinq

/-! A context with its endpoints: what becomes of their transports' events. -/

/-- A connection of a transport, with `transport_get_conn_id`. -/
structure PeerConn where
  connection : Nat
  id : Nat
  deriving DecidableEq, Repr

structure PeerState where
  connection : Nat
  id : Nat
  ready : Bool := false
  deriving DecidableEq, Repr

/-- An endpoint, with the streams it subscribes. -/
structure QlinqEndpoint where
  listener : Bool
  sharedSecret : Bytes
  active : Bool := true
  peers : List PeerState := []
  readyPeers : Nat := 0
  streams : List SubscribedStream := []
  deriving DecidableEq, Repr

/-- What is told of an object. -/
structure RecordInfo where
  groupId : Nat
  objectId : Nat
  isKeyframe : Bool
  priority : UInt8
  deriving DecidableEq, Repr

/-- The transport's events, with what it answers meanwhile: whether it can send, and which
tracks it can subscribe. -/
inductive PeerEvent where
  | connected (conn : PeerConn) (sendsAuth : Bool)
  | auth (conn : PeerConn) (token : Bytes) (responds : Bool)
      (subscribes : SubscribedStream → Bool)
  | authComplete (conn : PeerConn) (success : Bool) (subscribes : SubscribedStream → Bool)
  | disconnected (conn : PeerConn) (info : DisconnectInfo) (reason : Bytes)
  | subscribe (conn : PeerConn) (track : TrackId)
  | unsubscribe (conn : PeerConn) (track : TrackId)
  | keyframeRequest (conn : PeerConn) (track : TrackId)
  | object (conn : PeerConn) (track : TrackId) (info : RecordInfo) (data : Bytes)
  | objectLost (conn : PeerConn) (track : TrackId) (info : RecordInfo)

/-- `closing` lists the connections that were to be closed for a record that could not be
kept. -/
structure QlinqContext where
  events : EventList
  endpoints : Nat → Option QlinqEndpoint := fun _ => none
  closing : List (Nat × PeerConn) := []

namespace QlinqEndpoint

def findPeer (endpoint : QlinqEndpoint) (connection : Nat) : Option PeerState :=
  endpoint.peers.find? (·.connection == connection)

def setReady (connection : Nat) : List PeerState → List PeerState
  | [] => []
  | peer :: rest =>
      if peer.connection == connection then
        { peer with ready := true } :: rest
      else
        peer :: setReady connection rest

def addPeer (endpoint : QlinqEndpoint) (conn : PeerConn) : QlinqEndpoint :=
  { endpoint with
    peers := { connection := conn.connection, id := conn.id } :: endpoint.peers }

def markReady (endpoint : QlinqEndpoint) (connection : Nat) : QlinqEndpoint :=
  { endpoint with
    peers := setReady connection endpoint.peers
    readyPeers := endpoint.readyPeers + 1 }

/-- `remove_peer`. -/
def removePeer (endpoint : QlinqEndpoint) (connection : Nat) : QlinqEndpoint :=
  match endpoint.findPeer connection with
  | none => endpoint
  | some peer =>
      { endpoint with
        peers := endpoint.peers.eraseP (·.connection == connection)
        readyPeers :=
          if peer.ready ∧ endpoint.readyPeers ≠ 0 then
            endpoint.readyPeers - 1
          else
            endpoint.readyPeers }

/-- The endpoint's part of `qlinq_endpoint_close`. -/
def close (endpoint : QlinqEndpoint) : QlinqEndpoint :=
  { endpoint with active := false, peers := [], readyPeers := 0, streams := [] }

def findStream (endpoint : QlinqEndpoint) (track : TrackId) : Bool :=
  endpoint.streams.any (·.isFor track)

end QlinqEndpoint

namespace QlinqContext

def updateEndpoint (c : QlinqContext) (index : Nat) (update : QlinqEndpoint → QlinqEndpoint) :
    QlinqContext :=
  { c with
    endpoints := Function.update c.endpoints index ((c.endpoints index).map update) }

def post (c : QlinqContext) (callocs : Callocs) (event : QlinqEvent) : QlinqContext :=
  { c with events := (c.events.queueEvent callocs event).1 }

def postError (c : QlinqContext) (callocs : Callocs) (index : Nat) (status : QlinqStatus)
    (message : String) : QlinqContext :=
  { c with events := c.events.queueError callocs index status message }

def findPeer (c : QlinqContext) (index : Nat) (connection : Nat) : Option PeerState :=
  (c.endpoints index).bind (·.findPeer connection)

/-- `peer_id`. -/
def peerId (c : QlinqContext) (index : Nat) (conn : PeerConn) : Nat :=
  ((c.findPeer index conn.connection).map (·.id)).getD conn.id

/-- `add_peer`. -/
def addPeer (c : QlinqContext) (callocs : Callocs) (index : Nat) (conn : PeerConn) :
    QlinqContext × Option PeerState :=
  match c.findPeer index conn.connection with
  | some peer => (c, some peer)
  | none =>
      match c.events.calloc callocs with
      | (events, none) =>
          ({ c with events := events }.postError callocs index .noMemory
              "unable to retain connected peer state",
            none)
      | (events, some _) =>
          ({ c with events := events }.updateEndpoint index (·.addPeer conn),
            some { connection := conn.connection, id := conn.id })

/-- `activate_subscriptions`. -/
def activateSubscriptions (c : QlinqContext) (callocs : Callocs) (index : Nat)
    (streams : List SubscribedStream) (subscribes : SubscribedStream → Bool) : QlinqContext :=
  streams.foldl (fun c stream =>
      if subscribes stream then
        c
      else
        c.postError callocs index .state "unable to activate stream subscription")
    c

/-- `mark_peer_ready`. -/
def markPeerReady (c : QlinqContext) (callocs : Callocs) (index : Nat) (conn : PeerConn)
    (streams : List SubscribedStream) (subscribes : SubscribedStream → Bool) : QlinqContext :=
  match c.addPeer callocs index conn with
  | (c, none) => c
  | (c, some peer) =>
      if peer.ready then
        c
      else
        let marked := c.updateEndpoint index (·.markReady conn.connection)
        (marked.activateSubscriptions callocs index streams subscribes).post callocs
          { type := .peerReady, endpoint := index, peerId := peer.id }

def rejectPeer (c : QlinqContext) (callocs : Callocs) (index : Nat) (conn : PeerConn) :
    QlinqContext :=
  c.post callocs
    { type := .peerRejected, endpoint := index, peerId := c.peerId index conn, status := .state }

/-- `queue_record` for one of the records of an object. -/
def queueRecord (c : QlinqContext) (callocs : Callocs) (index : Nat) (subscribed : Bool)
    (conn : PeerConn) (track : TrackId) (info : RecordInfo) (events : EventList)
    (data : Bytes) : Option EventList :=
  if subscribed then
    let (events, queued) := events.queueEvent callocs
      { type := .record, endpoint := index, peerId := c.peerId index conn, track := some track
        groupId := info.groupId, sequence := info.objectId, isKeyframe := info.isKeyframe
        priority := info.priority, payload := data }
    if queued then some events else none
  else
    some events

/-- `reject_received_record`. -/
def rejectReceivedRecord (c : QlinqContext) (callocs : Callocs) (index : Nat) (conn : PeerConn)
    (track : TrackId) : QlinqContext :=
  let c := c.postError callocs index .resourceLimit (TrackStream.rejectReason track)
  if track.flags &&& (flagReliable ||| flagFecEnabled ||| flagFecRateless) != 0 then
    { c with closing := c.closing ++ [(index, conn)] }
  else
    c

/-- `queue_received_object`; the report of a refused record finds the memory as `report`
has it. -/
def queueObject (c : QlinqContext) (callocs report : Callocs) (index : Nat) (subscribed : Bool)
    (conn : PeerConn) (track : TrackId) (info : RecordInfo) (data : Bytes) : QlinqContext :=
  let (events, outcome) := queueReceivedObject
    (c.queueRecord callocs index subscribed conn track info) c.events track data
  let c := { c with events := events }
  match outcome with
  | .complete => c
  | .malformedPayload => c.postError report index .invalid "malformed grouped record payload"
  | .malformedLength => c.postError report index .invalid "malformed grouped record length"
  | .unqueued => c.rejectReceivedRecord report index conn track

def postPeer (c : QlinqContext) (callocs : Callocs) (index : Nat) (conn : PeerConn)
    (type : EventType) (track : TrackId) : QlinqContext :=
  c.post callocs
    { type := type, endpoint := index, peerId := c.peerId index conn, track := some track }

/-- `on_transport_event` of an active endpoint. -/
def handle (c : QlinqContext) (callocs report : Callocs) (index : Nat)
    (endpoint : QlinqEndpoint) : PeerEvent → QlinqContext
  | .connected conn sendsAuth =>
      let c := (c.addPeer callocs index conn).1
      if !endpoint.listener && !sendsAuth then
        c.postError callocs index .state "unable to authenticate connected peer"
      else
        c
  | .auth conn token responds subscribes =>
      if !responds then
        c.postError callocs index .state "unable to send authentication response"
      else if endpoint.listener && token == endpoint.sharedSecret then
        c.markPeerReady callocs index conn endpoint.streams subscribes
      else
        c.rejectPeer callocs index conn
  | .authComplete conn success subscribes =>
      if success then
        c.markPeerReady callocs index conn endpoint.streams subscribes
      else
        c.rejectPeer callocs index conn
  | .disconnected conn info reason =>
      let told := c.post callocs
        { type := .peerDisconnected, endpoint := index, peerId := c.peerId index conn
          disconnect := some
            { info with
              wasReady := ((c.findPeer index conn.connection).map (·.ready)).getD false
              outgoing := !endpoint.listener }
          message := some (if reason = [] then text "unspecified" else reason) }
      told.updateEndpoint index (·.removePeer conn.connection)
  | .subscribe conn track => c.postPeer callocs index conn .subscriberJoined track
  | .unsubscribe conn track => c.postPeer callocs index conn .subscriberLeft track
  | .keyframeRequest conn track => c.postPeer callocs index conn .keyframeRequested track
  | .object conn track info data =>
      c.queueObject callocs report index (endpoint.findStream track) conn track info data
  | .objectLost conn track info =>
      c.post callocs
        { type := .recordLost, endpoint := index, peerId := c.peerId index conn
          track := some track, groupId := info.groupId, sequence := info.objectId }

inductive Op where
  | openEndpoint (index : Nat) (listener : Bool) (sharedSecret : Bytes)
  | transport (index : Nat) (event : PeerEvent) (callocs report : Callocs)
  /-- The application subscribes a track: its ready peers are told, some perhaps in vain. -/
  | openStream (index : Nat) (stream : SubscribedStream) (callocs : Callocs)
      (subscribes : PeerState → Bool)
  | closeStream (index : Nat) (stream : SubscribedStream)
  /-- A publishing stream became writable. -/
  | writable (index : Nat) (track : TrackId) (callocs : Callocs)
  | closeEndpoint (index : Nat)
  | nextEvent
  | releaseEvent (address : Nat)

/-- The subscribing side of `open_stream`. -/
def openStream (c : QlinqContext) (callocs : Callocs) (index : Nat) (endpoint : QlinqEndpoint)
    (stream : SubscribedStream) (subscribes : PeerState → Bool) : QlinqContext :=
  if endpoint.streams.any (fun other => other.type == stream.type && other.name == stream.name) then
    { c with events := c.events.setStatus .state }
  else
    let opened := c.updateEndpoint index fun endpoint =>
      { endpoint with streams := stream :: endpoint.streams }
    endpoint.peers.foldl (fun c peer =>
        if peer.ready && !subscribes peer then
          c.postError callocs index .state "unable to activate stream subscription"
        else
          c)
      opened

/-- What an active endpoint does. -/
def atEndpoint (c : QlinqContext) (index : Nat) (work : QlinqEndpoint → QlinqContext) :
    QlinqContext :=
  match c.endpoints index with
  | none => c
  | some endpoint => if endpoint.active then work endpoint else c

def apply (c : QlinqContext) : Op → QlinqContext
  | .openEndpoint index listener sharedSecret =>
      if (c.endpoints index).isSome then
        c
      else
        { c with
          endpoints := Function.update c.endpoints index
            (some { listener := listener, sharedSecret := sharedSecret }) }
  | .transport index event callocs report =>
      c.atEndpoint index fun endpoint => c.handle callocs report index endpoint event
  | .openStream index stream callocs subscribes =>
      c.atEndpoint index fun endpoint => c.openStream callocs index endpoint stream subscribes
  | .closeStream index stream =>
      c.atEndpoint index fun _ => c.updateEndpoint index fun endpoint =>
        { endpoint with streams := endpoint.streams.erase stream }
  | .writable index track callocs =>
      c.atEndpoint index fun _ =>
        c.post callocs { type := .streamWritable, endpoint := index, track := some track }
  | .closeEndpoint index => c.atEndpoint index fun _ => c.updateEndpoint index (·.close)
  | .nextEvent => { c with events := c.events.nextEvent.1 }
  | .releaseEvent address => { c with events := c.events.releaseEvent address }

def run (limits : EventLimits) (ops : List Op) : QlinqContext :=
  Machine.run apply { events := { limits := limits } } ops

end QlinqContext

namespace QlinqEndpoint

/-! ### Counting the ready peers -/

/-- The count of the ready peers is right. -/
def Counted (endpoint : QlinqEndpoint) : Prop :=
  endpoint.readyPeers = endpoint.peers.countP (·.ready)

variable {endpoint : QlinqEndpoint}

theorem counted_addPeer (hcounted : endpoint.Counted) (conn : PeerConn) :
    (endpoint.addPeer conn).Counted := by
  change endpoint.readyPeers = List.countP _ (_ :: endpoint.peers)
  rw [List.countP_cons_of_neg (by simp)]
  exact hcounted

theorem countP_setReady {peers : List PeerState}
    (hfound : peers.find? (·.connection == connection) = some peer)
    (hunready : peer.ready = false) :
    (setReady connection peers).countP (·.ready) = peers.countP (·.ready) + 1 := by
  induction peers with
  | nil => cases hfound
  | cons first rest ih =>
      unfold setReady
      split
      · next hhere =>
          simp only [List.find?_cons, hhere] at hfound
          obtain rfl := Option.some.inj hfound
          rw [List.countP_cons_of_pos rfl, List.countP_cons_of_neg (by simp [hunready])]
      · next hother =>
          simp only [List.find?_cons, Bool.eq_false_of_not_eq_true hother] at hfound
          rw [List.countP_cons, List.countP_cons, ih hfound]
          omega

theorem counted_markReady (hcounted : endpoint.Counted)
    (hfound : endpoint.findPeer connection = some peer) (hunready : peer.ready = false) :
    (endpoint.markReady connection).Counted := by
  have hone := countP_setReady hfound hunready
  change endpoint.readyPeers + 1 = _
  rw [hcounted]
  exact hone.symm

theorem countP_eraseP {peers : List PeerState}
    (hfound : peers.find? (·.connection == connection) = some peer) :
    (peers.eraseP (·.connection == connection)).countP (·.ready) + peer.ready.toNat =
      peers.countP (·.ready) := by
  induction peers with
  | nil => cases hfound
  | cons first rest ih =>
      cases hhere : first.connection == connection with
      | true =>
          simp only [List.find?_cons, hhere] at hfound
          obtain rfl := Option.some.inj hfound
          simp only [List.eraseP_cons, hhere, cond_true, List.countP_cons]
          cases first.ready <;> rfl
      | false =>
          simp only [List.find?_cons, hhere] at hfound
          simp only [List.eraseP_cons, hhere, cond_false, List.countP_cons]
          have hrest := ih hfound
          omega

theorem counted_removePeer (hcounted : endpoint.Counted) (connection : Nat) :
    (endpoint.removePeer connection).Counted := by
  unfold removePeer
  cases hfound : endpoint.findPeer connection with
  | none => exact hcounted
  | some peer =>
      have hone := countP_eraseP hfound
      unfold Counted at hcounted
      change (if peer.ready ∧ endpoint.readyPeers ≠ 0 then endpoint.readyPeers - 1
          else endpoint.readyPeers) =
        (endpoint.peers.eraseP (·.connection == connection)).countP (·.ready)
      cases hready : peer.ready with
      | true =>
          rw [hready] at hone
          change _ + 1 = _ at hone
          rw [if_pos ⟨rfl, by omega⟩]
          omega
      | false =>
          rw [hready] at hone
          change _ + 0 = _ at hone
          rw [if_neg (by simp)]
          omega

end QlinqEndpoint

namespace QlinqContext

/-! ### What every operation keeps -/

structure Sound (c : QlinqContext) : Prop where
  events : c.events.Sound
  peers : ∀ index endpoint, c.endpoints index = some endpoint → endpoint.Counted

variable {c : QlinqContext} {callocs report : Callocs} {index : Nat}

theorem sound_init (limits : EventLimits) :
    Sound { events := { limits := limits } } where
  events := EventList.sound_initial limits
  peers := fun _ _ hendpoint => by cases hendpoint

theorem sound_events {events : EventList} (hsound : c.Sound) (hevents : events.Sound) :
    Sound { c with events := events } :=
  ⟨hevents, hsound.peers⟩

theorem sound_post (hsound : c.Sound) (callocs : Callocs) (event : QlinqEvent) :
    (c.post callocs event).Sound :=
  sound_events hsound (EventList.sound_queueEvent hsound.events callocs event)

theorem sound_postError (hsound : c.Sound) (callocs : Callocs) (index : Nat)
    (status : QlinqStatus) (message : String) :
    (c.postError callocs index status message).Sound :=
  sound_events hsound (EventList.sound_queueError hsound.events callocs index status message)

theorem sound_updateEndpoint (hsound : c.Sound) {update : QlinqEndpoint → QlinqEndpoint}
    (hupdate : ∀ endpoint, c.endpoints index = some endpoint → endpoint.Counted →
      (update endpoint).Counted) : (c.updateEndpoint index update).Sound where
  events := hsound.events
  peers := by
    intro other endpoint hendpoint
    change Function.update c.endpoints index ((c.endpoints index).map update) other =
      some endpoint at hendpoint
    cases decEq other index with
    | isTrue heq =>
        subst heq
        rw [Function.update_self] at hendpoint
        obtain ⟨before, hbefore, rfl⟩ := Option.map_eq_some_iff.mp hendpoint
        exact hupdate before hbefore (hsound.peers other before hbefore)
    | isFalse hne =>
        rw [Function.update_of_ne hne] at hendpoint
        exact hsound.peers other endpoint hendpoint

theorem sound_addPeer (hsound : c.Sound) (callocs : Callocs) (index : Nat) (conn : PeerConn) :
    (c.addPeer callocs index conn).1.Sound := by
  have hcalloc := (EventList.same_calloc c.events callocs).sound hsound.events
  unfold addPeer
  split
  · exact hsound
  · split
    · next events hfailed =>
        obtain ⟨rfl, -⟩ := Prod.mk.inj hfailed
        exact sound_postError (sound_events hsound hcalloc) callocs index _ _
    · next events address hgranted =>
        obtain ⟨rfl, -⟩ := Prod.mk.inj hgranted
        exact sound_updateEndpoint (sound_events hsound hcalloc) fun endpoint _ hcounted =>
          QlinqEndpoint.counted_addPeer hcounted conn

/-- The peer that is returned is the first one of its connection. -/
theorem findPeer_addPeer (hendpoint : (c.endpoints index).isSome)
    (hadded : c.addPeer callocs index conn = (added, some peer)) :
    added.findPeer index conn.connection = some peer := by
  obtain ⟨endpoint, hsome⟩ := Option.isSome_iff_exists.mp hendpoint
  unfold addPeer at hadded
  split at hadded
  · next found hfound =>
      obtain ⟨rfl, hpeer⟩ := Prod.mk.inj hadded
      rw [hfound, hpeer]
  · split at hadded
    · cases (Prod.mk.inj hadded).2
    · next events address hgranted =>
        obtain ⟨rfl, hpeer⟩ := Prod.mk.inj hadded
        obtain rfl := Option.some.inj hpeer
        simp only [findPeer, updateEndpoint, Function.update_self, hsome, Option.map_some,
          Option.bind_some]
        exact List.find?_cons_of_pos (by simp)

theorem sound_foldl {items : List α} {visit : QlinqContext → α → QlinqContext}
    (hvisit : ∀ c item, c.Sound → (visit c item).Sound) (hsound : c.Sound) :
    (items.foldl visit c).Sound := by
  induction items generalizing c with
  | nil => exact hsound
  | cons item rest ih => exact ih (hvisit c item hsound)

theorem sound_activateSubscriptions (hsound : c.Sound) (callocs : Callocs) (index : Nat)
    (streams : List SubscribedStream) (subscribes : SubscribedStream → Bool) :
    (c.activateSubscriptions callocs index streams subscribes).Sound := by
  refine sound_foldl (fun c stream hsound => ?_) hsound
  split
  · exact hsound
  · exact sound_postError hsound callocs index _ _

theorem sound_markPeerReady (hsound : c.Sound) (hendpoint : (c.endpoints index).isSome)
    (callocs : Callocs) (conn : PeerConn) (streams : List SubscribedStream)
    (subscribes : SubscribedStream → Bool) :
    (c.markPeerReady callocs index conn streams subscribes).Sound := by
  have hadded := sound_addPeer hsound callocs index conn
  unfold markPeerReady
  split
  · next added hnone =>
      rw [hnone] at hadded
      exact hadded
  · next added peer hsome =>
      have hfound := findPeer_addPeer hendpoint hsome
      rw [hsome] at hadded
      split
      · exact hadded
      · next hunready =>
          refine sound_post (sound_activateSubscriptions ?_ callocs index streams subscribes)
            callocs _
          refine sound_updateEndpoint hadded fun endpoint hhere hcounted => ?_
          have hhere : added.endpoints index = some endpoint := hhere
          rw [findPeer, hhere] at hfound
          exact QlinqEndpoint.counted_markReady hcounted hfound (Bool.eq_false_of_not_eq_true hunready)

theorem sound_queueRecord (c : QlinqContext) {subscribed : Bool} {events queued : EventList}
    (hevents : events.Sound)
    (hqueued : c.queueRecord callocs index subscribed conn track info events data =
      some queued) : queued.Sound := by
  unfold queueRecord at hqueued
  split at hqueued
  · split at hqueued
    next after accepted hevent =>
    split at hqueued
    · obtain rfl := Option.some.inj hqueued
      have hfirst : (events.queueEvent callocs _).1 = after := congrArg Prod.fst hevent
      exact hfirst ▸ EventList.sound_queueEvent hevents callocs _
    · cases hqueued
  · obtain rfl := Option.some.inj hqueued
    exact hevents

/-- A property of the queue that each record keeps is kept by the object. -/
theorem queueGroupedRecords_keeps {record : σ → Bytes → Option σ} {Inv : σ → Prop}
    (hrecord : ∀ queue data queued, Inv queue → record queue data = some queued → Inv queued)
    (hstart : Inv queue) (data : Bytes) : Inv (queueGroupedRecords record queue data).1 := by
  induction queue, data using queueGroupedRecords.induct record with
  | case1 queue => rwa [queueGroupedRecords]
  | case2 queue => rwa [queueGroupedRecords]
  | case3 queue high low rest size hsize =>
      rw [queueGroupedRecords, if_pos hsize]
      exact hstart
  | case4 queue high low rest size hsize hrefused =>
      rw [queueGroupedRecords, if_neg hsize, hrefused]
      exact hstart
  | case5 queue high low rest size hsize queued hqueued ih =>
      rw [queueGroupedRecords, if_neg hsize, hqueued]
      exact ih (hrecord queue _ queued hstart hqueued)

theorem queueReceivedObject_keeps {record : σ → Bytes → Option σ} {Inv : σ → Prop}
    (hrecord : ∀ queue data queued, Inv queue → record queue data = some queued → Inv queued)
    (hstart : Inv queue) (track : TrackId) (data : Bytes) :
    Inv (queueReceivedObject record queue track data).1 := by
  unfold queueReceivedObject
  split
  · exact queueGroupedRecords_keeps hrecord hstart data
  · split
    · exact hstart
    · next queued hqueued => exact hrecord queue data queued hstart hqueued

theorem sound_queueObject (hsound : c.Sound) (callocs report : Callocs) (index : Nat)
    (subscribed : Bool) (conn : PeerConn) (track : TrackId) (info : RecordInfo)
    (data : Bytes) :
    (c.queueObject callocs report index subscribed conn track info data).Sound := by
  have hevents : EventList.Sound (queueReceivedObject
      (c.queueRecord callocs index subscribed conn track info) c.events track data).1 :=
    queueReceivedObject_keeps (fun _ _ _ hbefore hqueued => sound_queueRecord c hbefore hqueued)
      hsound.events track data
  unfold queueObject
  split
  next events outcome hobject =>
  rw [hobject] at hevents
  have hkept := sound_events hsound hevents
  cases outcome with
  | complete => exact hkept
  | malformedPayload => exact sound_postError hkept report index _ _
  | malformedLength => exact sound_postError hkept report index _ _
  | unqueued =>
      have hreported := sound_postError hkept report index .resourceLimit
        (TrackStream.rejectReason track)
      simp only [rejectReceivedRecord]
      split
      · exact ⟨hreported.events, hreported.peers⟩
      · exact hreported

theorem sound_handle (hsound : c.Sound) (hendpoint : (c.endpoints index).isSome)
    (callocs report : Callocs) (endpoint : QlinqEndpoint) (event : PeerEvent) :
    (c.handle callocs report index endpoint event).Sound := by
  cases event with
  | connected conn sendsAuth =>
      have hadded := sound_addPeer hsound callocs index conn
      simp only [handle]
      split
      · exact sound_postError hadded callocs index _ _
      · exact hadded
  | auth conn token responds subscribes =>
      simp only [handle]
      split
      · exact sound_postError hsound callocs index _ _
      split
      · exact sound_markPeerReady hsound hendpoint callocs conn _ subscribes
      · exact sound_post hsound callocs _
  | authComplete conn success subscribes =>
      simp only [handle]
      split
      · exact sound_markPeerReady hsound hendpoint callocs conn _ subscribes
      · exact sound_post hsound callocs _
  | disconnected conn info reason =>
      exact sound_updateEndpoint (sound_post hsound callocs _) fun endpoint _ hcounted =>
        QlinqEndpoint.counted_removePeer hcounted conn.connection
  | subscribe conn track => exact sound_post hsound callocs _
  | unsubscribe conn track => exact sound_post hsound callocs _
  | keyframeRequest conn track => exact sound_post hsound callocs _
  | object conn track info data =>
      exact sound_queueObject hsound callocs report index _ conn track info data
  | objectLost conn track info => exact sound_post hsound callocs _

theorem sound_openStream (hsound : c.Sound) (callocs : Callocs) (index : Nat)
    (endpoint : QlinqEndpoint) (stream : SubscribedStream) (subscribes : PeerState → Bool) :
    (c.openStream callocs index endpoint stream subscribes).Sound := by
  unfold openStream
  split
  · exact sound_events hsound ((EventList.same_setStatus c.events _).sound hsound.events)
  · refine sound_foldl (fun c peer hsound => ?_)
      (sound_updateEndpoint hsound fun endpoint _ hcounted => hcounted)
    split
    · exact sound_postError hsound callocs index _ _
    · exact hsound

theorem sound_atEndpoint (hsound : c.Sound) {work : QlinqEndpoint → QlinqContext}
    (hwork : ∀ endpoint, c.endpoints index = some endpoint → (work endpoint).Sound) :
    (c.atEndpoint index work).Sound := by
  unfold atEndpoint
  cases hendpoint : c.endpoints index with
  | none => exact hsound
  | some endpoint =>
      simp only
      split
      · exact hwork endpoint hendpoint
      · exact hsound

theorem sound_apply (hsound : c.Sound) (op : Op) : (c.apply op).Sound := by
  cases op with
  | openEndpoint index listener sharedSecret =>
      simp only [apply]
      split
      · exact hsound
      · refine ⟨hsound.events, fun other endpoint hendpoint => ?_⟩
        change Function.update c.endpoints index _ other = some endpoint at hendpoint
        cases decEq other index with
        | isTrue heq =>
            subst heq
            rw [Function.update_self] at hendpoint
            obtain rfl := Option.some.inj hendpoint
            rfl
        | isFalse hne =>
            rw [Function.update_of_ne hne] at hendpoint
            exact hsound.peers other endpoint hendpoint
  | transport index event callocs report =>
      exact sound_atEndpoint hsound fun endpoint hendpoint =>
        sound_handle hsound (by rw [hendpoint]; rfl) callocs report endpoint event
  | openStream index stream callocs subscribes =>
      exact sound_atEndpoint hsound fun endpoint _ =>
        sound_openStream hsound callocs index endpoint stream subscribes
  | closeStream index stream =>
      exact sound_atEndpoint hsound fun _ _ =>
        sound_updateEndpoint hsound fun _ _ hcounted => hcounted
  | writable index track callocs =>
      exact sound_atEndpoint hsound fun _ _ => sound_post hsound callocs _
  | closeEndpoint index =>
      exact sound_atEndpoint hsound fun _ _ => sound_updateEndpoint hsound fun _ _ _ => rfl
  | nextEvent => exact sound_events hsound (EventList.sound_nextEvent hsound.events)
  | releaseEvent address =>
      exact sound_events hsound (EventList.sound_releaseEvent hsound.events address)

theorem sound_run (limits : EventLimits) (ops : List Op) : (run limits ops).Sound :=
  Machine.invariant_run (fun _ op hsound _ => sound_apply hsound op) (sound_init limits)
    (Machine.along_true _ ops)

/-- After every run the events were handed out in the order they were accepted, the counters
are those of the list within their limits, its tail is its last node, the ready peers are
counted, and a refused event changes nothing of this. -/
theorem events_sound (limits : EventLimits) (ops : List Op) :
    (run limits ops).Sound ∧
      ∀ callocs event, ((run limits ops).events.queueEvent callocs event).2 = false →
        EventList.Same (run limits ops).events
          ((run limits ops).events.queueEvent callocs event).1 :=
  ⟨sound_run limits ops, fun callocs event =>
    EventList.same_of_rejected (run limits ops).events callocs event⟩

end QlinqContext

end Qlinq
