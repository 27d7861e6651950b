import Qlinq.Lib.Machine
import Qlinq.Publisher

namespace Qlinq

/-! The receiving side of one connection as a machine: local subscription calls,
messages of the peer in any order, and timers. -/

namespace Conn

/-- A CHECKPOINT or TRACK_END of the peer, behind the checks every control frame
passes. -/
def receiveRecoveryFrame (c : Conn) (receive : Conn → Conn) : Conn :=
  if c.closed.isSome then
    c
  else if !c.helloReceived then
    c.protocolClose "protocol error: HELLO must be first"
  else
    receive c

/-- Expiration of the assembler in a slot. -/
def expireAssembler (c : Conn) (slot : Nat) : Conn :=
  if c.closed.isSome then
    c
  else
    match c.assemblers.getD slot none with
    | none => c
    | some lost =>
        let c :=
          match c.receiveSubscriptions.findByAlias lost.trackAlias with
          | none => c
          | some track => c.emit (.objectLost track lost.groupId lost.objectId)
        { c with assemblers := c.assemblers.set slot none }

/-- `transport_protocol_send_nack`; a request the limiters withhold, or that is
retained already, is not written. -/
def sendNack (c : Conn) (request : Nack) (withheld : Bool) : Conn :=
  if (c.receiveSubscriptions.findByAlias request.trackAlias).isNone ||
      !c.streamCanAccept || withheld then
    c
  else
    (c.writeControlFrame (c.receiveFrame request.trackAlias (.nack request))).1

inductive ReceiveOp where
  | hello (hello : Hello)
  | respondAuth (success : Bool)
  | subscribe (track : TrackId)
  | unsubscribe (track : TrackId)
  | datagram (env : ReceiveEnv) (datagram : Sent Datagram)
  | trackObject (stream : Nat) (object : Sent TrackObject)
  | trackCheckpoint (checkpoint : TrackCheckpoint)
  | trackEnd (finish : TrackEnd)
  | expire (slot : Nat)
  | flushAcks
  | sendNack (request : Nack) (withheld : Bool)
  /-- The control stream drains or fills up. -/
  | admissions (admissions : List Admission)
  | close (code : AppError) (reason : String)

def receive (limits : TransportLimits) (c : Conn) : ReceiveOp → Conn
  | .hello hello => c.receiveHello limits hello
  | .respondAuth success => c.respondAuth success
  | .subscribe track => (c.subscribeConnection track).1
  | .unsubscribe track => (c.unsubscribeConnection track).1
  | .datagram env datagram => c.receiveDatagram env datagram
  | .trackObject stream object => c.receiveTrackObject stream object
  | .trackCheckpoint checkpoint =>
      c.receiveRecoveryFrame (·.receiveTrackCheckpoint checkpoint)
  | .trackEnd finish => c.receiveRecoveryFrame (·.receiveTrackEnd finish)
  | .expire slot => c.expireAssembler slot
  | .flushAcks => c.flushRecoveryAcks
  | .sendNack request withheld => c.sendNack request withheld
  | .admissions admissions => { c with admissions := admissions }
  | .close code reason => c.quiclyClose code reason

def receiveAll (limits : TransportLimits) (c : Conn) (ops : List ReceiveOp) : Conn :=
  Machine.run (receive limits) c ops

/-! ### Faultless surroundings -/

def quietReceive : ReceiveEnv where
  window := 8
  now := 0
  allocatesSlot := true
  enlarges := true
  allocatesObject := true
  codec := Transport.blankCodec

/-- Connect to a peer and subscribe to a track. -/
def subscribing (limits : TransportLimits) (track : TrackId) : List ReceiveOp :=
  [.hello (Transport.helloFor limits), .respondAuth true, .subscribe track]

/-- An object that fits in one symbol. -/
def singleSymbol (track : TrackId) (a : TrackAlias) (groupId objectId : Nat)
    (data : Bytes) : Sent Datagram where
  track := track
  generation := 0
  message :=
    { header :=
        { trackAlias := a
          isKeyframe := false
          priority := 0
          pathId := 0
          groupId := groupId
          objectId := objectId
          symbolIndex := 0
          totalSymbols := 1
          dataSymbols := 1
          symbolSize := data.length
          originalSize := data.length }
      symbol := data }

end Conn

end Qlinq
