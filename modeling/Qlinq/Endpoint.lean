import Mathlib.Logic.Function.Basic
import Qlinq.ControlWire
import Qlinq.Receiver
import Qlinq.TrackStream

namespace Qlinq

/-! An endpoint and the bytes its peers send it: control streams, track streams and
datagrams, each with the handler that parses it. -/

/-- The ingress side of one connection.  `hellos` records the frame count at each
accepted HELLO, `processed` the frames that reached their handler. -/
structure Link where
  quicReady : Bool := false
  helloSent : Bool := false
  connectedEmitted : Bool := false
  framesReceived : Nat := 0
  control : Bytes := []
  tracks : Nat → Bytes := fun _ => []
  hellos : List Nat := []
  processed : List ControlFrame := []

/-- What an endpoint tells its application. -/
inductive Notice where
  | connected
  | auth (token : Bytes)
  | authComplete (success : Bool)
  | event (event : Event)
  deriving DecidableEq, Repr

/-- Calls of the application. -/
inductive Call where
  | publish (env : PublishEnv) (object : MoqObject)
  | flush (env : FlushEnv)
  | finish (env : FlushEnv) (track : TrackId)
  | respondAuth (connId : Nat) (success : Bool)
  | subscribe (connId : Nat) (track : TrackId)
  | unsubscribe (connId : Nat) (track : TrackId)
  | close (connId : Nat) (code : AppError) (reason : String)

/-- The surroundings of one received message: the repair limiters and codec, and the
calls the application makes from its event callback. -/
structure IngressEnv where
  repair : RepairEnv
  calls : Notice → List Call

/-- What timers do to a connection. -/
inductive Timer where
  | expire (slot : Nat)
  | flushAcks
  | sendNack (request : Nack) (withheld : Bool)

structure Endpoint where
  transport : Transport
  numFds : Nat
  link : Nat → Link

namespace Conn

/-- A frame of the handshake, which `control` does not record. -/
def writeHandshakeFrame (c : Conn) : Conn × Bool :=
  if c.closed.isSome then
    (c, false)
  else if c.admission = .admitted then
    ({ c with admissions := c.admissions.tail }, true)
  else
    ({ c with admissions := c.admissions.tail }.quiclyClose .resourceLimit
      "reliable control queue exhausted", false)

def timer (c : Conn) : Timer → Conn
  | .expire slot => c.expireAssembler slot
  | .flushAcks => c.flushRecoveryAcks
  | .sendNack request withheld => c.sendNack request withheld

/-- The handler of a CHECKPOINT closes the connection. -/
def refusesCheckpoint (c : Conn) (checkpoint : TrackCheckpoint) : Bool :=
  let a := checkpoint.trackAlias
  !c.authenticated || !c.checkpointCapable || (c.recoveryTrack a).isNone ||
    if checkpoint.baseline then
      checkpoint.firstObjectId != checkpoint.finalObjectId ||
        (c.objectGap a).regresses checkpoint.finalObjectId ||
        !(c.sendCheckpointAck a checkpoint.groupId checkpoint.finalObjectId).2
    else
      !(c.receiveRecoveryCheckpoint a checkpoint.groupId checkpoint.firstObjectId
        checkpoint.finalObjectId true).2

/-- The handler of a TRACK_END closes the connection. -/
def refusesTrackEnd (c : Conn) (finish : TrackEnd) : Bool :=
  let a := finish.trackAlias
  let gap := c.objectGap a
  !c.authenticated || (c.recoveryTrack a).isNone ||
    if c.checkpointCapable && gap.announcedThrough finish.finalObjectId then
      gap.recoveryWindows.isEmpty &&
        !(c.sendCheckpointAck a finish.groupId finish.finalObjectId).2
    else
      !(c.receiveRecoveryCheckpoint a finish.groupId
        (trackEndFirst gap.lastCheckpointObjectId c.checkpointCapable finish.finalObjectId)
        finish.finalObjectId c.checkpointCapable).2

def refusesSubscribe (c : Conn) (a : TrackAlias) (track : TrackId) : Bool :=
  Transport.aliasCollides c a track || (c.sendSubscriptions.add track a).isNone

def refusesNack (c : Conn) (env : RepairEnv) (nack : Nack) : Bool :=
  env.requestAllowed &&
    match c.sendSubscriptions.findByAlias nack.trackAlias with
    | none => false
    | some track =>
        nack.rateless &&
          (!(trackProfile track).fecRateless || !c.hasCapability capRatelessRepair)

end Conn

namespace Transport

def refusesAck (t : Transport) (c : Conn) (ack : TrackCheckpointAck) : Bool :=
  match (c.sendSubscriptions.findByAlias ack.trackAlias).filter TrackId.isRatelessData with
  | none => true
  | some track => (t.checkpointAcked c ack track).isNone

end Transport

def WireHello.message (hello : WireHello) : Hello where
  capabilities := hello.capabilities
  maxReliableObjectSize := hello.maxReliableObjectSize.toNat
  maxFecObjectSize := hello.maxFecObjectSize.toNat
  maxSubscriptions := hello.maxSubscriptions.toNat
  maxDatagramSize := hello.maxDatagramSize.toNat

namespace Endpoint

def conn? (e : Endpoint) (connId : Nat) : Option Conn :=
  Keyed.lookup Conn.id connId e.transport.conns

def setTransport (e : Endpoint) (t : Transport) : Endpoint := { e with transport := t }

def setConn (e : Endpoint) (c : Conn) : Endpoint := e.setTransport (e.transport.setConn c)

def updateConn (e : Endpoint) (connId : Nat) (update : Conn → Conn) : Endpoint :=
  e.setTransport (e.transport.updateConn connId update)

def updateLink (e : Endpoint) (connId : Nat) (update : Link → Link) : Endpoint :=
  { e with link := Function.update e.link connId (update (e.link connId)) }

def close (e : Endpoint) (connId : Nat) (code : AppError) (reason : String) : Endpoint :=
  e.updateConn connId (·.quiclyClose code reason)

def record (e : Endpoint) (connId : Nat) (frame : ControlFrame) : Endpoint :=
  e.updateLink connId fun l => { l with processed := l.processed ++ [frame] }

/-! ### The application -/

/-- `transport_respond_auth`. -/
def respondAuth (e : Endpoint) (connId : Nat) (success : Bool) : Endpoint :=
  match e.conn? connId with
  | none => e
  | some c =>
      if !c.protocolReady then
        e
      else
        match c.writeHandshakeFrame with
        | (c, false) => e.setConn c
        | (c, true) =>
            if success then
              e.setConn { c with authenticated := true }
            else
              e.setConn (c.quiclyClose .authentication "authentication failed")

def call (e : Endpoint) : Call → Endpoint
  | .publish env object => e.setTransport (e.transport.publish env object).1
  | .flush env => e.setTransport (e.transport.flushGrouped env).1
  | .finish env track => e.setTransport (e.transport.finishTrack env track).1
  | .respondAuth connId success => e.respondAuth connId success
  | .subscribe connId track => e.updateConn connId fun c => (c.subscribeConnection track).1
  | .unsubscribe connId track =>
      e.updateConn connId fun c => (c.unsubscribeConnection track).1
  | .close connId code reason => e.close connId code reason

/-- `transport_emit_event`. -/
def notify (e : Endpoint) (env : IngressEnv) (notice : Notice) : Endpoint :=
  (env.calls notice).foldl call e

/-- The events a connection emitted between two states. -/
def notifyNew (e : Endpoint) (env : IngressEnv) (c c' : Conn) : Endpoint :=
  (c'.events.drop c.events.length).foldl (fun e event => e.notify env (.event event)) e

/-! ### HELLO -/

def localHello (t : Transport) (numFds : Nat) : WireHello where
  role := if t.isServer then wireRoleServer else wireRoleClient
  maxPaths := UInt16.ofNat numFds
  capabilities := wireCapKnown
  maxReliableObjectSize := UInt32.ofNat t.limits.maxReliableObjectSize
  maxFecObjectSize := UInt32.ofNat t.limits.maxFecObjectSize
  maxSubscriptions := UInt16.ofNat t.limits.maxSubscriptionsPerConnection
  maxDatagramSize := UInt16.ofNat (min t.limits.maxUdpPayloadSize 65535)

/-- `transport_protocol_send_hello`. -/
def sendHello (e : Endpoint) (connId : Nat) : Endpoint × Bool :=
  match e.conn? connId with
  | none => (e, false)
  | some c =>
      if (e.link connId).helloSent || c.closed.isSome then
        (e, (e.link connId).helloSent)
      else
        match WireHello.encode (List.replicate wireHelloSize 0)
            (localHello e.transport e.numFds) with
        | .error _ => (e, false)
        | .ok _ =>
            match c.writeHandshakeFrame with
            | (c, false) => (e.setConn c, false)
            | (c, true) =>
                ((e.setConn c).updateLink connId fun l => { l with helloSent := true }, true)

/-- `transport_protocol_maybe_emit_connected`. -/
def maybeEmitConnected (e : Endpoint) (env : IngressEnv) (connId : Nat) : Endpoint :=
  match e.conn? connId with
  | none => e
  | some c =>
      let l := e.link connId
      if l.connectedEmitted || !l.quicReady || !c.protocolReady then
        e
      else
        (e.updateLink connId fun l => { l with connectedEmitted := true }).notify env .connected

/-- `receive_hello`. -/
def receiveHello (e : Endpoint) (env : IngressEnv) (c : Conn) (payload : Bytes) :
    Endpoint × Bool :=
  if c.helloReceived then
    (e, false)
  else
    match WireHello.decode payload with
    | .error _ => (e, false)
    | .ok hello =>
        if hello.role ≠ (if e.transport.isServer then wireRoleClient else wireRoleServer) ∨
            hello.capabilities &&& (capReliable ||| capDatagram) ≠
              capReliable ||| capDatagram then
          (e, false)
        else
          let e := e.setConn { c with
            peerCapabilities := hello.capabilities
            negotiatedLimits := Conn.negotiate e.transport.limits hello.message
            helloReceived := true }
          match e.sendHello c.id with
          | (e, false) => (e, false)
          | (e, true) =>
              let e := e.updateConn c.id fun c => { c with protocolReady := true }
              let e := e.updateLink c.id fun l =>
                { l with hellos := l.hellos ++ [l.framesReceived] }
              (e.maybeEmitConnected env c.id, true)

/-! ### Control frames

The answer of a handler is whether its loop goes on. -/

def unauthorized (e : Endpoint) (connId : Nat) : Endpoint × Bool :=
  (e.close connId .authentication "unauthorized", false)

def protocolError (e : Endpoint) (connId : Nat) (reason : String) : Endpoint × Bool :=
  (e.close connId .protocol reason, false)

/-- SUBSCRIBE, UNSUBSCRIBE and KEYFRAME_REQUEST. -/
def receiveTrackFrame (e : Endpoint) (env : IngressEnv) (c : Conn) (frame : WireFrame) :
    Endpoint × Bool :=
  match WireTrack.decode frame.payload with
  | .error _ => e.protocolError c.id "protocol error: invalid track"
  | .ok wire =>
      if !c.authenticated then
        e.unauthorized c.id
      else
        match wire.trackId? with
        | none => e.protocolError c.id "protocol error: invalid track"
        | some track =>
            let a := wire.trackAlias
            if frame.type = wireSubscribe then
              let e := (e.record c.id (.subscribe a track)).setTransport
                (e.transport.receiveSubscribe c a track)
              if c.refusesSubscribe a track then
                (e, false)
              else
                (e.notify env (.event (.subscribe track)), true)
            else if frame.type = wireUnsubscribe then
              let e := (e.record c.id (.unsubscribe a track)).setTransport
                (e.transport.receiveUnsubscribe c a track)
              (e.notify env (.event (.unsubscribe track)), true)
            else
              let e := (e.record c.id (.keyframeRequest a track)).setConn
                (c.emit (.keyframeRequest track))
              (e.notify env (.event (.keyframeRequest track)), true)

def unicastEvent (payload : Bytes) : Event :=
  .object { type := .input, flags := 0, name := [] } 0 0 0 payload []

def receiveUnicast (e : Endpoint) (env : IngressEnv) (c : Conn) (payload : Bytes) :
    Endpoint × Bool :=
  if c.negotiatedLimits.maxReliableObjectSize < payload.length then
    (e.close c.id .resourceLimit "protocol error: payload too large", false)
  else if !c.authenticated then
    e.unauthorized c.id
  else
    let e := (e.record c.id (.unicast payload)).setConn (c.emit (unicastEvent payload))
    (e.notify env (.event (unicastEvent payload)), true)

def receiveAuthRequest (e : Endpoint) (env : IngressEnv) (c : Conn) (token : Bytes) :
    Endpoint × Bool :=
  if 65535 < token.length then
    (e.close c.id .resourceLimit "protocol error: auth token too large", false)
  else if !e.transport.isServer then
    e.protocolError c.id "protocol error: unexpected auth request"
  else
    (e.notify env (.auth token), true)

def receiveAuthResponse (e : Endpoint) (env : IngressEnv) (c : Conn) (payload : Bytes) :
    Endpoint × Bool :=
  if payload.length ≠ 1 ∨ 1 < readU8 payload 0 then
    e.protocolError c.id "protocol error: invalid auth response"
  else if e.transport.isServer then
    e.protocolError c.id "protocol error: unexpected auth response"
  else
    let success := readU8 payload 0 == 1
    let e := if success then e.setConn { c with authenticated := true } else e
    (e.notify env (.authComplete success), true)

def receiveNack (e : Endpoint) (env : IngressEnv) (c : Conn) (payload : Bytes) :
    Endpoint × Bool :=
  match decodeNack payload with
  | .error _ => e.protocolError c.id "protocol error: invalid nack"
  | .ok nack =>
      if !c.authenticated then
        e.unauthorized c.id
      else
        ((e.record c.id (.nack nack)).setTransport (e.transport.receiveNack env.repair c nack),
          !c.refusesNack env.repair nack)

def receiveTrackCheckpoint (e : Endpoint) (c : Conn) (payload : Bytes) : Endpoint × Bool :=
  match WireTrackCheckpoint.decode payload with
  | .error _ => e.protocolError c.id "protocol error: invalid recovery checkpoint"
  | .ok wire =>
      if !c.authenticated then
        e.protocolError c.id "protocol error: invalid recovery checkpoint"
      else
        ((e.record c.id (.trackCheckpoint wire.message)).setConn
            (c.receiveTrackCheckpoint wire.message),
          !c.refusesCheckpoint wire.message)

def receiveTrackCheckpointAck (e : Endpoint) (c : Conn) (payload : Bytes) :
    Endpoint × Bool :=
  match WireTrackCheckpointAck.decode payload with
  | .error _ => e.protocolError c.id "protocol error: invalid recovery checkpoint ACK"
  | .ok wire =>
      if !c.authenticated then
        e.protocolError c.id "protocol error: invalid recovery checkpoint ACK"
      else
        ((e.record c.id (.trackCheckpointAck wire.message)).setTransport
            (e.transport.receiveCheckpointAck c wire.message),
          !e.transport.refusesAck c wire.message)

def receiveTrackEnd (e : Endpoint) (c : Conn) (payload : Bytes) : Endpoint × Bool :=
  match WireTrackEnd.decode payload with
  | .error _ => e.protocolError c.id "protocol error: invalid track completion"
  | .ok wire =>
      if !c.authenticated then
        e.protocolError c.id "protocol error: invalid track completion"
      else
        ((e.record c.id (.trackEnd wire.message)).setConn (c.receiveTrackEnd wire.message),
          !c.refusesTrackEnd wire.message)

/-- The body of the loop of `parse_control_messages` for connection `connId`. -/
def receiveFrame (env : IngressEnv) (connId : Nat) (e : Endpoint) (frame : WireFrame) :
    Endpoint × Bool :=
  match e.conn? connId with
  | none => (e, false)
  | some c =>
      let e := e.updateLink connId fun l => { l with framesReceived := l.framesReceived + 1 }
      if frame.type ≠ wireHello ∧ !c.helloReceived then
        e.protocolError connId "protocol error: HELLO must be first"
      else if frame.type = wireHello then
        if (e.link connId).framesReceived ≠ 1 then
          e.protocolError connId "protocol error: invalid HELLO"
        else
          match e.receiveHello env c frame.payload with
          | (e, false) => e.protocolError connId "protocol error: invalid HELLO"
          | (e, true) => (e, true)
      else if frame.type = wireSubscribe ∨ frame.type = wireUnsubscribe ∨
          frame.type = wireKeyframeRequest then
        e.receiveTrackFrame env c frame
      else if frame.type = wireUnicast then
        e.receiveUnicast env c frame.payload
      else if frame.type = wireAuthRequest then
        e.receiveAuthRequest env c frame.payload
      else if frame.type = wireAuthResponse then
        e.receiveAuthResponse env c frame.payload
      else if frame.type = wireTrackObject then
        e.protocolError connId "protocol error: track object on control stream"
      else if frame.type = wireNack then
        e.receiveNack env c frame.payload
      else if frame.type = wireTrackCheckpoint then
        e.receiveTrackCheckpoint c frame.payload
      else if frame.type = wireTrackCheckpointAck then
        e.receiveTrackCheckpointAck c frame.payload
      else if frame.type = wireTrackEnd then
        e.receiveTrackEnd c frame.payload
      else
        e.protocolError connId "protocol error: unexpected frame"

/-- `close_wire_error`. -/
def closeWireError (connId : Nat) (e : Endpoint) (result : WireError) : Endpoint :=
  e.close connId .protocol (TrackStream.wireErrorReason result)

/-- The body of the loop of `parse_track_stream_messages`. -/
def receiveTrackStreamFrame (env : IngressEnv) (connId stream : Nat) (e : Endpoint)
    (frame : WireFrame) : Endpoint × Bool :=
  match e.conn? connId with
  | none => (e, false)
  | some c =>
      let e := e.updateLink connId fun l => { l with framesReceived := l.framesReceived + 1 }
      if frame.type ≠ wireTrackObject ∨ frame.payload.length < trackObjectHeaderSize then
        e.protocolError connId "protocol error: unexpected track frame"
      else if !c.authenticated then
        e.unauthorized connId
      else
        match decodeTrackObject frame.payload with
        | .error _ => e.protocolError connId "protocol error: invalid track object"
        | .ok object =>
            match c.parseTrackObject stream (c.receiveFrame object.trackAlias object) with
            | (c, .stop) => (e.setConn c, false)
            | (c, .skipped) => (e.setConn c, true)
            | (c', .emitted _) => ((e.setConn c').notifyNew env c c', true)

/-- `on_receive_datagram_frame`.  Telemetry only feeds the path statistics. -/
def receiveDatagram (e : Endpoint) (env : IngressEnv) (receive : Conn.ReceiveEnv)
    (connId : Nat) (payload : Bytes) : Endpoint :=
  match e.conn? connId with
  | none => e
  | some c =>
      if !c.authenticated then
        e
      else
        match decodeDatagramType payload with
        | .error _ => e
        | .ok type =>
            if type = wireDatagramTelemetry then
              e
            else
              match WireFecHeader.decode payload with
              | .error _ => e
              | .ok header =>
                  let c' := c.receiveDatagram receive (c.receiveFrame header.trackAlias
                    { header := header.message, symbol := payload.drop wireFecHeaderSize })
                  (e.setConn c').notifyNew env c c'

/-! ### Streams -/

def shiftControl (e : Endpoint) (connId consumed : Nat) : Endpoint :=
  e.updateLink connId fun l => { l with control := l.control.drop consumed }

def shiftTrack (e : Endpoint) (connId stream consumed : Nat) : Endpoint :=
  e.updateLink connId fun l =>
    { l with tracks := Function.update l.tracks stream ((l.tracks stream).drop consumed) }

/-- One round of `parse_control_messages`, and whether the loop goes on. -/
def controlRound (env : IngressEnv) (connId : Nat) (e : Endpoint) : Endpoint × Bool :=
  match frameVerdict wireMaxStreamPayload (e.link connId).control with
  | .needMore => (e, false)
  | .failed result => (closeWireError connId e result, false)
  | .decoded frame consumed =>
      match receiveFrame env connId e frame with
      | (e, false) => (e, false)
      | (e, true) => (e.shiftControl connId consumed, true)

/-- One round of `parse_track_stream_messages`. -/
def trackRound (env : IngressEnv) (connId stream : Nat) (e : Endpoint) : Endpoint × Bool :=
  match frameVerdict wireMaxStreamPayload ((e.link connId).tracks stream) with
  | .needMore => (e, false)
  | .failed result => (closeWireError connId e result, false)
  | .decoded frame consumed =>
      match receiveTrackStreamFrame env connId stream e frame with
      | (e, false) => (e, false)
      | (e, true) => (e.shiftTrack connId stream consumed, true)

/-- A loop of rounds; each takes a unit of fuel and has surroundings of its own. -/
def parseMessages (round : IngressEnv → Endpoint → Endpoint × Bool) (envs : Nat → IngressEnv) :
    Nat → Endpoint → Endpoint
  | 0, e => e
  | fuel + 1, e =>
      match round (envs fuel) e with
      | (e, false) => e
      | (e, true) => parseMessages round envs fuel e

def controlBytes (e : Endpoint) (connId : Nat) (data : Bytes) : Endpoint :=
  e.updateLink connId fun l => { l with control := l.control ++ data }

def trackBytes (e : Endpoint) (connId stream : Nat) (data : Bytes) : Endpoint :=
  e.updateLink connId fun l =>
    { l with tracks := Function.update l.tracks stream (l.tracks stream ++ data) }

/-- `on_receive` of the control stream. -/
def onReceiveControl (envs : Nat → IngressEnv) (connId : Nat) (data : Bytes) (e : Endpoint) :
    Endpoint :=
  let e := e.controlBytes connId data
  parseMessages (controlRound · connId) envs (e.link connId).control.length e

/-- `on_receive` of a track stream. -/
def onReceiveTrack (envs : Nat → IngressEnv) (connId stream : Nat) (data : Bytes)
    (e : Endpoint) : Endpoint :=
  let e := e.trackBytes connId stream data
  parseMessages (trackRound · connId stream) envs ((e.link connId).tracks stream).length e

/-! ### The machine -/

def runTimer (e : Endpoint) (env : IngressEnv) (connId : Nat) (timer : Timer) : Endpoint :=
  match e.conn? connId with
  | none => e
  | some c => (e.setConn (c.timer timer)).notifyNew env c (c.timer timer)

/-- A connection's part of `transport_tick`. -/
def tickConn (e : Endpoint) (env : IngressEnv) (connId : Nat) (ready : Bool) : Endpoint :=
  let e := if ready then e.updateLink connId fun l => { l with quicReady := true } else e
  let e := if (e.link connId).quicReady then (e.sendHello connId).1 else e
  e.maybeEmitConnected env connId

def connect (e : Endpoint) : Endpoint :=
  { e with
    transport := e.transport.connect
    link := Function.update e.link e.transport.nextConnId {} }

/-- A step takes one frame, one datagram or one call.  Nothing makes QUIC hold back
bytes after a close. -/
inductive Op where
  | connect
  | tick (env : IngressEnv) (connId : Nat) (ready : Bool)
  | controlBytes (connId : Nat) (data : Bytes)
  | controlRound (env : IngressEnv) (connId : Nat)
  | trackBytes (connId stream : Nat) (data : Bytes)
  | trackRound (env : IngressEnv) (connId stream : Nat)
  | datagram (env : IngressEnv) (receive : Conn.ReceiveEnv) (connId : Nat) (payload : Bytes)
  | call (call : Call)
  | timer (env : IngressEnv) (connId : Nat) (timer : Timer)
  | admissions (connId : Nat) (admissions : List Admission)
  | disconnect (connId : Nat)

def apply (e : Endpoint) : Op → Endpoint
  | .connect => e.connect
  | .tick env connId ready => e.tickConn env connId ready
  | .controlBytes connId data => e.controlBytes connId data
  | .controlRound env connId => (controlRound env connId e).1
  | .trackBytes connId stream data => e.trackBytes connId stream data
  | .trackRound env connId stream => (trackRound env connId stream e).1
  | .datagram env receive connId payload => e.receiveDatagram env receive connId payload
  | .call call => e.call call
  | .timer env connId timer => e.runTimer env connId timer
  | .admissions connId admissions =>
      e.updateConn connId fun c => { c with admissions := admissions }
  | .disconnect connId => e.setTransport (e.transport.disconnect connId)

def run (e : Endpoint) (ops : List Op) : Endpoint := Machine.run apply e ops

def init (isServer : Bool) (limits : TransportLimits) (maxRecoveryCacheBytes numFds : Nat) :
    Endpoint where
  transport := Transport.init isServer limits maxRecoveryCacheBytes
  numFds := numFds
  link _ := {}

/-- A whole parse is a run of rounds. -/
theorem parseMessages_eq_run {round : IngressEnv → Endpoint → Endpoint × Bool}
    (op : IngressEnv → Op) (hop : ∀ env e, e.apply (op env) = (round env e).1)
    (envs : Nat → IngressEnv) (fuel : Nat) (e : Endpoint) :
    ∃ ops, parseMessages round envs fuel e = e.run ops := by
  induction fuel generalizing e with
  | zero => exact ⟨[], rfl⟩
  | succ fuel ih =>
      have hfirst := hop (envs fuel) e
      unfold parseMessages
      cases hround : round (envs fuel) e with
      | mk e' goesOn =>
          rw [hround] at hfirst
          cases goesOn with
          | false => exact ⟨[op (envs fuel)], hfirst.symm⟩
          | true =>
              obtain ⟨ops, hops⟩ := ih e'
              refine ⟨op (envs fuel) :: ops, ?_⟩
              simp only [run, Machine.run_cons] at hops ⊢
              rw [hfirst]
              exact hops

theorem onReceiveControl_eq_run (envs : Nat → IngressEnv) (connId : Nat) (data : Bytes)
    (e : Endpoint) : ∃ ops, onReceiveControl envs connId data e = e.run ops := by
  obtain ⟨ops, hops⟩ := parseMessages_eq_run (.controlRound · connId) (fun _ _ => rfl) envs _ (e.controlBytes connId data)
  exact ⟨.controlBytes connId data :: ops, hops⟩

theorem onReceiveTrack_eq_run (envs : Nat → IngressEnv) (connId stream : Nat) (data : Bytes)
    (e : Endpoint) : ∃ ops, onReceiveTrack envs connId stream data e = e.run ops := by
  obtain ⟨ops, hops⟩ := parseMessages_eq_run (.trackRound · connId stream) (fun _ _ => rfl) envs _ (e.trackBytes connId stream data)
  exact ⟨.trackBytes connId stream data :: ops, hops⟩

end Endpoint

end Qlinq
