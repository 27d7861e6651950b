import Qlinq.Deliveries
import Qlinq.TrackStream

namespace Qlinq

/-! A subscriber: one connection and the application's side of its events. -/

/-- An object that reached `queue_received_object`: the records queued of it, `none`
when no stream was open. -/
structure HandedObject where
  identity : ObjectIdentity
  queued : Option (List Bytes)
  deriving DecidableEq, Repr

structure Subscriber where
  conn : Conn
  streams : List SubscribedStream
  queue : EventQueue
  handed : List HandedObject := []

namespace Subscriber

/-- `allocates behind size`: a node of that size can be allocated behind so many. -/
abbrev Memory := Nat → Nat → Bool

def findStream (s : Subscriber) (track : TrackId) : Bool :=
  s.streams.any (·.isFor track)

def queueEvent (allocates : Memory) (queue : EventQueue) (payloadSize messageSize : Nat) :
    Option EventQueue :=
  if allocates queue.sizes.length (queue.allocationSize payloadSize messageSize) then
    queue.queueEvent payloadSize messageSize
  else
    none

/-- `queue_error` and the events of `on_transport_event` that are dropped where they do
not fit. -/
def queueNotice (s : Subscriber) (allocates : Memory) (messageSize : Nat) : Subscriber :=
  { s with queue := (queueEvent allocates s.queue 0 messageSize).getD s.queue }

def queueError (s : Subscriber) (allocates : Memory) (message : String) : Subscriber :=
  s.queueNotice allocates (message.utf8ByteSize + 1)

/-- `queue_record`, with the records queued before it. -/
def queueRecord (s : Subscriber) (allocates : Memory) (track : TrackId)
    (queue : EventQueue × List Bytes) (data : Bytes) : Option (EventQueue × List Bytes) :=
  if s.findStream track then
    (queueEvent allocates queue.1 data.length 0).map fun grown => (grown, queue.2 ++ [data])
  else
    some queue

/-- `reject_received_record`. -/
def rejectReceivedRecord (s : Subscriber) (allocates : Memory) (track : TrackId) :
    Subscriber :=
  let s := s.queueError allocates (TrackStream.rejectReason track)
  if track.flags &&& (flagReliable ||| flagFecEnabled ||| flagFecRateless) != 0 then
    { s with conn := s.conn.quiclyClose .resourceLimit (TrackStream.rejectReason track) }
  else
    s

/-- `queue_received_object`. -/
def queueObject (s : Subscriber) (allocates : Memory) (track : TrackId)
    (identity : ObjectIdentity) (data : Bytes) : Subscriber :=
  match queueReceivedObject (s.queueRecord allocates track) (s.queue, []) track data with
  | ((queue, queued), outcome) =>
      let s := { s with
        queue := queue
        handed := s.handed ++ [⟨identity, if s.findStream track then some queued else none⟩] }
      match outcome with
      | .complete => s
      | .malformedPayload => s.queueError allocates "malformed grouped record payload"
      | .malformedLength => s.queueError allocates "malformed grouped record length"
      | .unqueued => s.rejectReceivedRecord allocates track

/-- `on_transport_event`. -/
def onTransportEvent (allocates : Memory) (s : Subscriber) : Event → Subscriber
  | .object track generation groupId objectId data _ =>
      s.queueObject allocates track ⟨generation, groupId, objectId⟩ data
  | .objectLost _ _ _ => s.queueNotice allocates 0
  | .subscribe _ => s.queueNotice allocates 0
  | .unsubscribe _ => s.queueNotice allocates 0
  | .keyframeRequest _ => s.queueNotice allocates 0

inductive Op where
  | receive (op : Conn.ReceiveOp) (allocates : Memory)
  | nextEvent
  /-- An event of another connection or endpoint of the context. -/
  | queueEvent (payloadSize messageSize : Nat)
  /-- The application opens and closes streams. -/
  | streams (streams : List SubscribedStream)

/-- The callback is synchronous: a step of the connection ends when its events were
handled, and nothing is sent before. -/
def apply (limits : TransportLimits) (s : Subscriber) : Op → Subscriber
  | .receive op allocates =>
      let conn := Conn.receive limits s.conn op
      (conn.events.drop s.conn.events.length).foldl (onTransportEvent allocates)
        { s with conn := conn }
  | .nextEvent => { s with queue := s.queue.nextEvent }
  | .queueEvent payloadSize messageSize =>
      { s with queue := (s.queue.queueEvent payloadSize messageSize).getD s.queue }
  | .streams streams => { s with streams := streams }

def run (limits : TransportLimits) (s : Subscriber) (ops : List Op) : Subscriber :=
  Machine.run (apply limits) s ops

/-- A context before its first event, its connection before the first frame. -/
def init (limits : TransportLimits) (queue : EventQueue) : Subscriber where
  conn := Conn.init 0 limits
  streams := []
  queue := queue

end Subscriber

end Qlinq
