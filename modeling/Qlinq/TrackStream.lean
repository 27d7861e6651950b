import Qlinq.Received
import Qlinq.Receiver
import Qlinq.WireFrames

namespace Qlinq

/-! One reliable track stream on its way to the application's event queue. -/

/-- The profiles an application opens its streams with. -/
inductive Delivery where
  | reliable
  | fixedFec
  | rateless
  | datagram
  deriving DecidableEq, Repr

def deliveryFlags : Delivery → UInt8
  | .reliable => flagReliable
  | .fixedFec => flagFecEnabled
  | .rateless => flagFecRateless
  | .datagram => 0

def flagsDelivery (flags : UInt8) : Delivery :=
  if flags &&& flagReliable != 0 then .reliable
  else if flags &&& flagFecRateless != 0 then .rateless
  else if flags &&& flagFecEnabled != 0 then .fixedFec
  else .datagram

/-- A subscribing stream of the application that is not closed. -/
structure SubscribedStream where
  type : TrackType
  delivery : Delivery
  name : Bytes
  deriving DecidableEq, Repr

def SubscribedStream.isFor (stream : SubscribedStream) (track : TrackId) : Bool :=
  stream.type == track.type && stream.delivery == flagsDelivery track.flags &&
    stream.name == track.name

/-- The context's event queue: the allocation sizes of its nodes, oldest first.
`nodeSize` is `sizeof(qlinq_event_node_t)`.  A node that fits is allocated. -/
structure EventQueue where
  maxQueuedEvents : Nat
  maxQueuedEventBytes : Nat
  nodeSize : Nat
  sizes : List Nat := []
  deriving DecidableEq, Repr

namespace EventQueue

def queuedEventBytes (q : EventQueue) : Nat := q.sizes.sum

def allocationSize (q : EventQueue) (payloadSize messageSize : Nat) : Nat :=
  q.nodeSize + payloadSize + messageSize

/-- The checks of `queue_event`. -/
def hasRoom (q : EventQueue) (payloadSize messageSize : Nat) : Bool :=
  !(sizeMax - q.nodeSize < payloadSize || sizeMax - q.nodeSize - payloadSize < messageSize) &&
    !(q.maxQueuedEvents ≤ q.sizes.length || q.maxQueuedEventBytes < q.queuedEventBytes ||
      q.maxQueuedEventBytes - q.queuedEventBytes < q.allocationSize payloadSize messageSize)

/-- `queue_event`. -/
def queueEvent (q : EventQueue) (payloadSize messageSize : Nat) : Option EventQueue :=
  if q.hasRoom payloadSize messageSize then
    some { q with sizes := q.sizes ++ [q.allocationSize payloadSize messageSize] }
  else
    none

/-- `queue_error`: an ERROR event that does not fit is dropped. -/
def queueError (q : EventQueue) (message : String) : EventQueue :=
  (q.queueEvent 0 (message.utf8ByteSize + 1)).getD q

/-- `qlinq_next_event`. -/
def nextEvent (q : EventQueue) : EventQueue := { q with sizes := q.sizes.tail }

end EventQueue

/-- `handed` records the objects passed to `queue_record` for an open stream,
with its answers. -/
structure TrackStream where
  id : Nat
  conn : Conn
  streams : List SubscribedStream
  queue : EventQueue
  ingress : Bytes := []
  handed : List (TrackObject × Bool) := []

namespace TrackStream

def findStream (s : TrackStream) (track : TrackId) : Bool :=
  s.streams.any (·.isFor track)

def close (s : TrackStream) (code : AppError) (reason : String) : TrackStream :=
  { s with conn := s.conn.quiclyClose code reason }

/-- `queue_record`: without an open stream the record is passed over. -/
def queueRecord (s : TrackStream) (track : TrackId) (queue : EventQueue) (data : Bytes) :
    Option EventQueue :=
  if s.findStream track then queue.queueEvent data.length 0 else some queue

def rejectReason (track : TrackId) : String :=
  if track.type = .data ∧ (trackProfile track).usesFec then
    "unable to queue recovered record"
  else
    "unable to queue received record"

/-- `reject_received_record`. -/
def rejectReceivedRecord (s : TrackStream) (track : TrackId) : TrackStream :=
  let s := { s with queue := s.queue.queueError (rejectReason track) }
  if track.flags &&& (flagReliable ||| flagFecEnabled ||| flagFecRateless) != 0 then
    s.close .resourceLimit (rejectReason track)
  else
    s

/-- The object event's way through `queue_received_object`. -/
def queueObject (s : TrackStream) (track : TrackId) (object : TrackObject) : TrackStream :=
  match queueReceivedObject (s.queueRecord track) s.queue track object.payload with
  | (queue, outcome) =>
      let s := { s with
        queue := queue
        handed :=
          if s.findStream track then s.handed ++ [(object, outcome == .complete)]
          else s.handed }
      match outcome with
      | .complete => s
      | .malformedPayload =>
          { s with queue := s.queue.queueError "malformed grouped record payload" }
      | .malformedLength =>
          { s with queue := s.queue.queueError "malformed grouped record length" }
      | .unqueued => s.rejectReceivedRecord track

def wireErrorReason : WireError → String
  | .unsupportedVersion => "protocol version mismatch"
  | _ => "protocol error: malformed frame"

/-- `parse_track_stream_messages`; each round of the loop takes a unit of fuel. -/
def parseTrackStreamMessages : Nat → TrackStream → TrackStream
  | 0, s => s
  | fuel + 1, s =>
      if s.ingress = [] then
        s
      else
        match decodeFrame s.ingress wireMaxStreamPayload with
        | .error .needMore => s
        | .error result => s.close .protocol (wireErrorReason result)
        | .ok frame =>
            if frame.type ≠ wireTrackObject ∨
                frame.payload.length < trackObjectHeaderSize then
              s.close .protocol "protocol error: unexpected track frame"
            else if !s.conn.authenticated then
              s.close .authentication "unauthorized"
            else
              match decodeTrackObject frame.payload with
              | .error _ => s.close .protocol "protocol error: invalid track object"
              | .ok object =>
                  let shifted : TrackStream :=
                    { s with ingress := s.ingress.drop frame.consumed }
                  match s.conn.parseTrackObject s.id
                    (s.conn.receiveFrame object.trackAlias object) with
                  | (c, .stop) => { s with conn := c }
                  | (c, .skipped) =>
                      parseTrackStreamMessages fuel { shifted with conn := c }
                  | (c, .emitted track) =>
                      parseTrackStreamMessages fuel
                        ({ shifted with conn := c }.queueObject track object)

/-- `on_receive`. -/
def onReceive (s : TrackStream) (data : Bytes) : TrackStream :=
  let s := { s with ingress := s.ingress ++ data }
  parseTrackStreamMessages s.ingress.length s

/-- What can happen around a track stream.  Nothing here stops QUIC from handing
over data after a close. -/
inductive Op where
  | receive (data : Bytes)
  | nextEvent
  /-- Another event of the endpoint. -/
  | queueEvent (payloadSize messageSize : Nat)
  | close (code : AppError) (reason : String)
  deriving DecidableEq, Repr

def apply (s : TrackStream) : Op → TrackStream
  | .receive data => s.onReceive data
  | .nextEvent => { s with queue := s.queue.nextEvent }
  | .queueEvent payloadSize messageSize =>
      { s with queue := (s.queue.queueEvent payloadSize messageSize).getD s.queue }
  | .close code reason => s.close code reason

def run (s : TrackStream) (ops : List Op) : TrackStream := Machine.run apply s ops

def Op.data : Op → Bytes
  | .receive data => data
  | _ => []

/-- The stream's bytes that a run receives. -/
def received (ops : List Op) : Bytes := ops.flatMap Op.data

/-- The records whose events were queued. -/
def queued (s : TrackStream) : List TrackObject :=
  (s.handed.filter (·.2)).map (·.1)

end TrackStream

end Qlinq
