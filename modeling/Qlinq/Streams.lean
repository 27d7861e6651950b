import Qlinq.Datagram
import Qlinq.Lib.EdgeTrigger
import Qlinq.PeerEvents

namespace Qlinq

/-! The streams that an application opens at the endpoints of a context. -/

inductive StreamDirection where
  | publish
  | subscribe
  deriving DecidableEq, Repr

inductive StreamState where
  | opened
  | closed
  deriving DecidableEq, Repr

inductive SendResult where
  | sent
  | buffered
  | noSubscribers
  | partialDelivery
  | wouldBlock
  | invalid
  | failed
  deriving DecidableEq, Repr

def mapSendResult : PublishResult → SendResult
  | .delivered => .sent
  | .buffered => .buffered
  | .noRecipients => .noSubscribers
  | .partialDelivery => .partialDelivery
  | .backpressure => .wouldBlock
  | .invalid => .invalid
  | .error => .failed

/-- A stream; `id` stands for its address.  `signals` is kept for specification: what the sends
and the refreshes found of its writability. -/
structure QlinqStream where
  id : Nat
  profile : SubscribedStream
  direction : StreamDirection
  state : StreamState := .opened
  recordsSent : Nat := 0
  recordsReceived : Nat := 0
  objectsLost : Nat := 0
  writableKnown : Bool := false
  lastWritable : Bool := false
  active : Bool := true
  signals : List EdgeSignal := []
  deriving DecidableEq, Repr

/-- What becomes of an endpoint over time, kept for specification. -/
inductive ServiceMark where
  | submitted
  | ticked
  deriving DecidableEq, Repr

/-- What an endpoint has besides its peers; `streams` has the latest first. -/
structure ServedEndpoint where
  streams : List QlinqStream := []
  recordsReceived : Nat := 0
  lastServiceMs : Int := 0
  servicePending : Bool := false
  marks : List ServiceMark := []
  deriving DecidableEq, Repr

/-- A context whose endpoints have their streams.  The endpoints are numbered as they are
opened. -/
structure Facade where
  context : QlinqContext
  opened : Nat := 0
  served : Nat → ServedEndpoint := fun _ => {}
  pollEndpointCapacity : Nat := 0

namespace QlinqStream

/-- `stream->track`. -/
def track (stream : QlinqStream) : TrackId where
  type := stream.profile.type
  flags := deliveryFlags stream.profile.delivery
  name := stream.profile.name

def receive (stream : QlinqStream) : QlinqStream :=
  { stream with recordsReceived := stream.recordsReceived + 1 }

def lose (stream : QlinqStream) : QlinqStream :=
  { stream with objectsLost := stream.objectsLost + 1 }

/-- Both ways to close a stream leave it so. -/
def close (stream : QlinqStream) : QlinqStream :=
  { stream with state := .closed, active := false }

/-- What `qlinq_stream_send` does with the transport's answer. -/
def send (stream : QlinqStream) (result : SendResult) : QlinqStream :=
  let counted :=
    if result = .sent ∨ result = .buffered ∨ result = .partialDelivery then
      { stream with recordsSent := stream.recordsSent + 1 }
    else
      stream
  if result = .wouldBlock then
    { counted with
      writableKnown := true
      lastWritable := false
      signals := counted.signals ++ [.lowered] }
  else
    counted

def isPublishing (stream : QlinqStream) : Bool :=
  stream.active && stream.direction == .publish && stream.state == .opened

/-- The body of the loop in `refresh_writable_events`. -/
def refresh (stream : QlinqStream) (index : Nat) (callocs : Callocs) (writable : Bool)
    (events : EventList) : QlinqStream × EventList :=
  let becameWritable := writable && (!stream.writableKnown || !stream.lastWritable)
  let seen := { stream with writableKnown := true, lastWritable := writable }
  if !becameWritable then
    ({ seen with signals := seen.signals ++ [if writable then .steady else .lowered] }, events)
  else
    let (events, queued) := events.queueEvent callocs
      { type := .streamWritable, endpoint := index, track := some stream.track }
    if queued then
      ({ seen with signals := seen.signals ++ [.reported] }, events)
    else
      -- The report is due again at the next refresh.
      ({ seen with writableKnown := false, signals := seen.signals ++ [.refused] }, events)

end QlinqStream

namespace ServedEndpoint

def findStream (e : ServedEndpoint) (track : TrackId) (direction : StreamDirection) :
    Option QlinqStream :=
  e.streams.find? fun stream =>
    stream.active && stream.direction == direction && stream.profile.isFor track

def changeStream (e : ServedEndpoint) (id : Nat) (change : QlinqStream → QlinqStream) :
    ServedEndpoint :=
  { e with streams := e.streams.map fun stream => if stream.id = id then change stream else stream }

/-- The subscription counts an object of its track as lost. -/
def loseObject (e : ServedEndpoint) (track : TrackId) : ServedEndpoint :=
  match e.findStream track .subscribe with
  | none => e
  | some stream => e.changeStream stream.id (·.lose)

/-- `service_pending = true`. -/
def submit (e : ServedEndpoint) : ServedEndpoint :=
  { e with servicePending := true, marks := e.marks ++ [.submitted] }

/-- The start of `service_endpoint`. -/
def startTick (e : ServedEndpoint) (nowMs : Int) : ServedEndpoint :=
  { e with lastServiceMs := nowMs, servicePending := false, marks := e.marks ++ [.ticked] }

def addStream (e : ServedEndpoint) (profile : SubscribedStream) (direction : StreamDirection) :
    ServedEndpoint :=
  { e with
    streams := { id := e.streams.length, profile := profile, direction := direction } ::
      e.streams }

def closeStreams (e : ServedEndpoint) : ServedEndpoint :=
  { e with streams := e.streams.map (·.close) }

/-- Whether a stream of the name is open in the direction already. -/
def holds (e : ServedEndpoint) (profile : SubscribedStream) (direction : StreamDirection) : Bool :=
  e.streams.any fun stream => stream.active && stream.direction == direction &&
    stream.profile.type == profile.type && stream.profile.name == profile.name

end ServedEndpoint

/-- An event of a transport, with the memory that its handling finds. -/
structure TransportReport where
  event : PeerEvent
  callocs : Callocs
  report : Callocs

def streamNameCapacity : Nat := 64

namespace Facade

def setStatus (f : Facade) (status : QlinqStatus) : Facade :=
  { f with context := { f.context with events := f.context.events.setStatus status } }

def change (f : Facade) (index : Nat) (update : ServedEndpoint → ServedEndpoint) : Facade :=
  { f with served := Function.update f.served index (update (f.served index)) }

def isActive (f : Facade) (index : Nat) : Bool := (f.context.endpoints index).any (·.active)

/-! ### Opening and closing -/

/-- `open_endpoint` of a sound configuration whose transport is created. -/
def openEndpoint (f : Facade) (listener : Bool) (sharedSecret : Bytes) : Facade :=
  let entered :=
    { f with
      context := f.context.apply (.openEndpoint f.opened listener sharedSecret)
      opened := f.opened + 1 }
  (entered.change f.opened (·.submit)).setStatus .ok

/-- `open_stream`. -/
def openStream (f : Facade) (callocs : Callocs) (index : Nat) (profile : SubscribedStream)
    (direction : StreamDirection) (allocates : Bool) (subscribes : PeerState → Bool) : Facade :=
  match f.context.endpoints index with
  | none => f
  | some endpoint =>
      if !endpoint.active || profile.name == [] || streamNameCapacity ≤ profile.name.length then
        f.setStatus .invalid
      else if (f.served index).holds profile direction then
        f.setStatus .state
      else if !allocates then
        f.setStatus .noMemory
      else
        let added := f.change index fun e => (e.addStream profile direction).submit
        match direction with
        | .publish => added.setStatus .ok
        | .subscribe =>
            let told :=
              { added with
                context := added.context.openStream callocs index endpoint profile subscribes }
            if endpoint.peers.any (fun peer => peer.ready && !subscribes peer) then
              told
            else
              told.setStatus .ok

/-- `qlinq_stream_close`. -/
def closeStream (f : Facade) (index id : Nat) : Facade :=
  match (f.served index).streams.find? (·.id == id) with
  | none => f
  | some stream =>
      if !stream.active then
        f
      else
        let closed := f.change index fun e => (e.changeStream id (·.close)).submit
        match stream.direction with
        | .publish => closed
        | .subscribe =>
            { closed with context := closed.context.apply (.closeStream index stream.profile) }

/-- `qlinq_endpoint_close`. -/
def closeEndpoint (f : Facade) (index : Nat) : Facade :=
  if f.isActive index then
    { f.change index (·.closeStreams) with context := f.context.apply (.closeEndpoint index) }
  else
    f

/-- `qlinq_endpoint_shutdown`, and `qlinq_endpoint_reload_credentials` with its files. -/
def submitWork (f : Facade) (index : Nat) (status : QlinqStatus) : Facade :=
  if f.isActive index then
    (f.change index (·.submit)).setStatus status
  else
    f

/-- `qlinq_stream_send` of a sound record, with what the transport answers. -/
def sendRecord (f : Facade) (index id : Nat) (answer : PublishResult) : Facade × SendResult :=
  match (f.served index).streams.find? (·.id == id) with
  | none => (f, .invalid)
  | some stream =>
      if !stream.isPublishing then
        (f, .invalid)
      else
        let result := mapSendResult answer
        (f.change index fun e => (e.submit).changeStream id (·.send result), result)

/-! ### The transports' events -/

/-- `queue_record` with its counts. -/
def queueRecord (f : Facade) (callocs : Callocs) (index : Nat) (conn : PeerConn)
    (track : TrackId) (info : RecordInfo) (s : EventList × ServedEndpoint) (data : Bytes) :
    Option (EventList × ServedEndpoint) :=
  match s.2.findStream track .subscribe with
  | none => some s
  | some stream =>
      if stream.state = .closed then
        some s
      else
        let (events, queued) := s.1.queueEvent callocs
          { type := .record, endpoint := index, peerId := f.context.peerId index conn
            track := some track, groupId := info.groupId, sequence := info.objectId
            isKeyframe := info.isKeyframe, priority := info.priority, payload := data }
        if queued then
          let counted := { s.2 with recordsReceived := s.2.recordsReceived + 1 }
          some (events, counted.changeStream stream.id (·.receive))
        else
          none

/-- `queue_received_object`. -/
def queueObject (f : Facade) (callocs report : Callocs) (index : Nat) (conn : PeerConn)
    (track : TrackId) (info : RecordInfo) (data : Bytes) : Facade :=
  let ((events, e), outcome) := queueReceivedObject
    (f.queueRecord callocs index conn track info) (f.context.events, f.served index) track data
  let context := { f.context with events := events }
  { f with
    served := Function.update f.served index e
    context := match outcome with
      | .complete => context
      | .malformedPayload =>
          context.postError report index .invalid "malformed grouped record payload"
      | .malformedLength =>
          context.postError report index .invalid "malformed grouped record length"
      | .unqueued => context.rejectReceivedRecord report index conn track }

/-- `on_transport_event` of an active endpoint. -/
def handle (f : Facade) (index : Nat) (endpoint : QlinqEndpoint) (report : TransportReport) :
    Facade :=
  let told := f.context.handle report.callocs report.report index endpoint report.event
  match report.event with
  | .object conn track info data =>
      f.queueObject report.callocs report.report index conn track info data
  | .objectLost _ track _ =>
      { f.change index (·.loseObject track) with context := told }
  | _ => { f with context := told }

def onTransportEvent (f : Facade) (index : Nat) (report : TransportReport) : Facade :=
  match f.context.endpoints index with
  | none => f
  | some endpoint => if endpoint.active then f.handle index endpoint report else f

end Facade

end Qlinq
