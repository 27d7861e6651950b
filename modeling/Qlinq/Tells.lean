import Qlinq.Streams

namespace Qlinq

/-! What the handling of a transport's event leaves alone, and which events it queues. -/

namespace EventList

theorem accepted_queueEvent (q : EventList) (callocs : Callocs) (event : QlinqEvent) :
    (q.queueEvent callocs event).1.accepted =
      q.accepted ++ if (q.queueEvent callocs event).2 then [event] else [] := by
  have hqueued := queued_queueEvent q callocs event
  generalize q.queueEvent callocs event = outcome at hqueued
  cases hqueued with
  | rejected hsame => simp [hsame.accepted_eq]
  | accepted address size hunused hevents hbytes hqueued => simp [hqueued.accepted_eq]

theorem popped_queueEvent (q : EventList) (callocs : Callocs) (event : QlinqEvent) :
    (q.queueEvent callocs event).1.popped = q.popped := by
  have hqueued := queued_queueEvent q callocs event
  generalize q.queueEvent callocs event = outcome at hqueued
  cases hqueued with
  | rejected hsame => exact hsame.popped_eq
  | accepted address size hunused hevents hbytes hqueued => exact hqueued.popped_eq

end EventList

namespace QlinqContext

/-- The part of an endpoint that only the application changes. -/
def shape (endpoint : QlinqEndpoint) : Bool × List SubscribedStream :=
  (endpoint.active, endpoint.streams)

/-- Between the two states only such events were queued, none was handed out, and the endpoints
kept their streams. -/
structure Tells (about : QlinqEvent → Prop) (before after : QlinqContext) : Prop where
  shape_eq : ∀ index, (after.endpoints index).map shape = (before.endpoints index).map shape
  popped_eq : after.events.popped = before.events.popped
  accepted : ∃ told, after.events.accepted = before.events.accepted ++ told ∧
    ∀ event ∈ told, about event

variable {about : QlinqEvent → Prop} {c before between after : QlinqContext}
  {callocs report : Callocs} {index : Nat}

theorem tells_self (c : QlinqContext) : Tells about c c :=
  ⟨fun _ => rfl, rfl, [], (List.append_nil _).symm, by simp⟩

theorem Tells.trans (hfirst : Tells about before between) (hsecond : Tells about between after) :
    Tells about before after := by
  obtain ⟨told, haccepted, habout⟩ := hfirst.accepted
  obtain ⟨told', haccepted', habout'⟩ := hsecond.accepted
  refine ⟨fun index => (hsecond.shape_eq index).trans (hfirst.shape_eq index),
    hsecond.popped_eq.trans hfirst.popped_eq, told ++ told', ?_, ?_⟩
  · rw [haccepted', haccepted, List.append_assoc]
  · intro event hevent
    exact (List.mem_append.mp hevent).elim (habout event) (habout' event)

theorem tells_of_events {events : EventList} (haccepted : events.accepted = c.events.accepted)
    (hpopped : events.popped = c.events.popped) : Tells about c { c with events := events } :=
  ⟨fun _ => rfl, hpopped, [], haccepted.trans (List.append_nil _).symm, by simp⟩

theorem tells_post (c : QlinqContext) (callocs : Callocs) {event : QlinqEvent}
    (habout : about event) : Tells about c (c.post callocs event) := by
  refine ⟨fun _ => rfl, EventList.popped_queueEvent c.events callocs event, _,
    EventList.accepted_queueEvent c.events callocs event, ?_⟩
  intro other hother
  split at hother
  · rwa [List.mem_singleton.mp hother]
  · cases hother

theorem tells_postError (c : QlinqContext) (callocs : Callocs) (index : Nat)
    (status : QlinqStatus) (message : String)
    (habout : ∀ event : QlinqEvent, event.type = .error → about event) :
    Tells about c (c.postError callocs index status message) := by
  have hstatus : Tells about c { c with events := c.events.setStatus status } :=
    tells_of_events rfl rfl
  exact hstatus.trans
    (tells_post { c with events := c.events.setStatus status } callocs (habout _ rfl))

theorem tells_updateEndpoint (c : QlinqContext) {update : QlinqEndpoint → QlinqEndpoint}
    (hshape : ∀ endpoint, shape (update endpoint) = shape endpoint) :
    Tells about c (c.updateEndpoint index update) := by
  refine ⟨fun other => ?_, rfl, [], (List.append_nil _).symm, by simp⟩
  cases decEq other index with
  | isTrue heq =>
      subst heq
      have hsame : shape ∘ update = shape := funext hshape
      simp only [updateEndpoint, Function.update_self, Option.map_map, hsame]
  | isFalse hne => simp only [updateEndpoint, Function.update_of_ne hne]

theorem tells_foldl {items : List α} {visit : QlinqContext → α → QlinqContext}
    (hvisit : ∀ c item, Tells about c (visit c item)) (c : QlinqContext) :
    Tells about c (items.foldl visit c) := by
  induction items generalizing c with
  | nil => exact tells_self c
  | cons item rest ih => exact (hvisit c item).trans (ih (visit c item))

/-- An event about a peer or its subscriptions, or a report of an error. -/
def Plain (event : QlinqEvent) : Prop :=
  event.type ≠ .record ∧ event.type ≠ .streamWritable

theorem plain_of_error (event : QlinqEvent) (herror : event.type = .error) : Plain event := by
  rw [Plain, herror]
  decide

theorem tells_addPeer (c : QlinqContext) (callocs : Callocs) (index : Nat) (conn : PeerConn) :
    Tells Plain c (c.addPeer callocs index conn).1 := by
  unfold addPeer
  split
  · exact tells_self c
  have hcalloc : Tells Plain c { c with events := (c.events.calloc callocs).1 } :=
    tells_of_events rfl rfl
  split
  · next events hfailed =>
      obtain rfl : (c.events.calloc callocs).1 = events := congrArg Prod.fst hfailed
      exact hcalloc.trans (tells_postError _ callocs index _ _ plain_of_error)
  · next events address hgranted =>
      obtain rfl : (c.events.calloc callocs).1 = events := congrArg Prod.fst hgranted
      exact hcalloc.trans (tells_updateEndpoint _ fun _ => rfl)

theorem tells_activateSubscriptions (c : QlinqContext) (callocs : Callocs) (index : Nat)
    (streams : List SubscribedStream) (subscribes : SubscribedStream → Bool) :
    Tells Plain c (c.activateSubscriptions callocs index streams subscribes) := by
  apply tells_foldl
  intro c stream
  split
  · exact tells_self c
  · exact tells_postError c callocs index _ _ plain_of_error

theorem tells_markPeerReady (c : QlinqContext) (callocs : Callocs) (index : Nat)
    (conn : PeerConn) (streams : List SubscribedStream) (subscribes : SubscribedStream → Bool) :
    Tells Plain c (c.markPeerReady callocs index conn streams subscribes) := by
  have hadded := tells_addPeer c callocs index conn
  unfold markPeerReady
  split
  · next added hadd =>
      obtain rfl : (c.addPeer callocs index conn).1 = added := congrArg Prod.fst hadd
      exact hadded
  next added peer hadd =>
  obtain rfl : (c.addPeer callocs index conn).1 = added := congrArg Prod.fst hadd
  split
  · exact hadded
  · have hmarked : Tells Plain (c.addPeer callocs index conn).1
        ((c.addPeer callocs index conn).1.updateEndpoint index (·.markReady conn.connection)) :=
      tells_updateEndpoint _ fun _ => rfl
    refine ((hadded.trans hmarked).trans
      (tells_activateSubscriptions _ callocs index streams subscribes)).trans
      (tells_post _ callocs ?_)
    simp [Plain]

theorem tells_rejectPeer (c : QlinqContext) (callocs : Callocs) (index : Nat)
    (conn : PeerConn) : Tells Plain c (c.rejectPeer callocs index conn) := by
  apply tells_post
  simp [Plain]

theorem tells_rejectReceivedRecord (c : QlinqContext) (callocs : Callocs) (index : Nat)
    (conn : PeerConn) (track : TrackId) :
    Tells Plain c (c.rejectReceivedRecord callocs index conn track) := by
  have hreported : Tells Plain c (c.postError callocs index .resourceLimit
      (TrackStream.rejectReason track)) :=
    tells_postError c callocs index _ _ plain_of_error
  unfold rejectReceivedRecord
  extract_lets reported
  split
  · exact ⟨hreported.shape_eq, hreported.popped_eq, hreported.accepted⟩
  · exact hreported

/-- Only an object brings a record. -/
theorem tells_handle (c : QlinqContext) (callocs report : Callocs) (index : Nat)
    (endpoint : QlinqEndpoint) {event : PeerEvent}
    (hobject : ∀ conn track info data, event ≠ .object conn track info data) :
    Tells Plain c (c.handle callocs report index endpoint event) := by
  cases event with
  | connected conn sendsAuth =>
      simp only [handle]
      split
      · exact (tells_addPeer c callocs index conn).trans
          (tells_postError _ callocs index _ _ plain_of_error)
      · exact tells_addPeer c callocs index conn
  | auth conn token responds subscribes =>
      simp only [handle]
      split
      · exact tells_postError c callocs index _ _ plain_of_error
      split
      · exact tells_markPeerReady c callocs index conn _ subscribes
      · exact tells_rejectPeer c callocs index conn
  | authComplete conn success subscribes =>
      simp only [handle]
      split
      · exact tells_markPeerReady c callocs index conn _ subscribes
      · exact tells_rejectPeer c callocs index conn
  | disconnected conn info reason =>
      refine (tells_post c callocs ?_).trans (tells_updateEndpoint _ fun endpoint => ?_)
      · simp [Plain]
      · unfold QlinqEndpoint.removePeer
        split
        · rfl
        · rfl
  | subscribe conn track =>
      apply tells_post
      simp [Plain]
  | unsubscribe conn track =>
      apply tells_post
      simp [Plain]
  | keyframeRequest conn track =>
      apply tells_post
      simp [Plain]
  | object conn track info data => exact absurd rfl (hobject conn track info data)
  | objectLost conn track info =>
      apply tells_post
      simp [Plain]

/-- The peers are told of a new stream after it is entered. -/
theorem tells_openStream (c : QlinqContext) (callocs : Callocs) (index : Nat)
    (endpoint : QlinqEndpoint) (stream : SubscribedStream) (subscribes : PeerState → Bool)
    (hfree : ∀ other ∈ endpoint.streams, ¬ (other.type = stream.type ∧ other.name = stream.name)) :
    Tells Plain
      (c.updateEndpoint index fun endpoint =>
        { endpoint with streams := stream :: endpoint.streams })
      (c.openStream callocs index endpoint stream subscribes) := by
  have hnone : endpoint.streams.any
      (fun other => other.type == stream.type && other.name == stream.name) = false := by
    simpa using fun other hother htype => fun hname => hfree other hother ⟨htype, hname⟩
  rw [openStream, if_neg (by simp [hnone])]
  apply tells_foldl
  intro c peer
  split
  · exact tells_postError c callocs index _ _ plain_of_error
  · exact tells_self c

end QlinqContext

end Qlinq
