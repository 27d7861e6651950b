import Qlinq.Recovery
import Qlinq.Repair

namespace Qlinq

/-! Frames received on the control stream, on track streams and as datagrams,
and the local subscription calls. -/

namespace Conn

def emit (c : Conn) (event : Event) : Conn := { c with events := c.events ++ [event] }

/-! ### The subscriber's side of the control stream -/

/-- The rateless DATA track a recovery frame's alias names. -/
def recoveryTrack (c : Conn) (a : TrackAlias) : Option TrackId :=
  (c.receiveSubscriptions.findByAlias a).filter TrackId.isRatelessData

def receiveBaseline (c : Conn) (checkpoint : TrackCheckpoint) : Conn :=
  let a := checkpoint.trackAlias
  if checkpoint.firstObjectId ≠ checkpoint.finalObjectId ∨
      (c.objectGap a).regresses checkpoint.finalObjectId then
    c.protocolClose "protocol error: invalid recovery baseline"
  else
    match c.sendCheckpointAck a checkpoint.groupId checkpoint.finalObjectId with
    | (c, false) => c.protocolClose "protocol error: invalid recovery baseline"
    | (c, true) =>
        c.setObjectGap a { c.objectGap a with
          lastCheckpointObjectId := some checkpoint.finalObjectId }

def receiveTrackCheckpoint (c : Conn) (checkpoint : TrackCheckpoint) : Conn :=
  if !c.authenticated || !c.checkpointCapable ||
      (c.recoveryTrack checkpoint.trackAlias).isNone then
    c.protocolClose "protocol error: invalid recovery checkpoint"
  else if checkpoint.baseline then
    c.receiveBaseline checkpoint
  else
    match c.receiveRecoveryCheckpoint checkpoint.trackAlias checkpoint.groupId
        checkpoint.firstObjectId checkpoint.finalObjectId true with
    | (c, true) => c
    | (c, false) => c.protocolClose "protocol error: invalid recovery checkpoint window"

/-- First object of the window a TRACK_END announces. -/
def trackEndFirst (last : Option Nat) (acknowledge : Bool) (finalObjectId : Nat) : Nat :=
  match last, acknowledge with
  | some last, true => last + 1
  | _, _ => if 31 ≤ finalObjectId then finalObjectId - 31 else 0

def receiveTrackEnd (c : Conn) (finish : TrackEnd) : Conn :=
  if !c.authenticated || (c.recoveryTrack finish.trackAlias).isNone then
    c.protocolClose "protocol error: invalid track completion"
  else
    let a := finish.trackAlias
    let gap := c.objectGap a
    let acknowledge := c.checkpointCapable
    if acknowledge && gap.announcedThrough finish.finalObjectId then
      if gap.recoveryWindows ≠ [] then
        c
      else
        match c.sendCheckpointAck a finish.groupId finish.finalObjectId with
        | (c, false) => c.protocolClose "protocol error: completion ACK failed"
        | (c, true) => c.retireRecoveryThrough a finish.groupId finish.finalObjectId
    else
      match c.receiveRecoveryCheckpoint a finish.groupId
          (trackEndFirst gap.lastCheckpointObjectId acknowledge finish.finalObjectId)
          finish.finalObjectId acknowledge with
      | (c, true) => c
      | (c, false) => c.protocolClose "protocol error: invalid track completion window"

/-! ### Local subscription calls -/

def aliasFor (c : Conn) (track : TrackId) : Option TrackAlias :=
  if track.name = [] then
    some track.type.code
  else
    c.receiveSubscriptions.nextAlias 8

/-- `subscribe_connection`. -/
def subscribeConnection (c : Conn) (track : TrackId) : Conn × Bool :=
  if !trackIdValid track || !c.established then
    (c, false)
  else
    match c.receiveSubscriptions.find track with
    | some entry =>
        if entry.trackId.flags ≠ track.flags then
          (c, false)
        else
          c.writeControlFrame (c.receiveFrame entry.trackAlias
            (.subscribe entry.trackAlias track))
    | none =>
        if c.negotiatedLimits.maxSubscriptionsPerConnection ≤
            c.receiveSubscriptions.count then
          (c, false)
        else
          match c.aliasFor track with
          | none => (c, false)
          | some a =>
              match c.receiveSubscriptions.add track a with
              | none => (c, false)
              | some table =>
                  let c := { c with receiveSubscriptions := table }
                  match c.writeControlFrame (c.receiveFrame a (.subscribe a track)) with
                  | (c, true) => (c, true)
                  | (c, false) =>
                      ({ c with
                          receiveSubscriptions := c.receiveSubscriptions.remove track },
                        false)

/-- `unsubscribe_connection`. -/
def unsubscribeConnection (c : Conn) (track : TrackId) : Conn × Bool :=
  if !trackIdValid track || !c.established then
    (c, false)
  else
    match c.receiveSubscriptions.find track with
    | none => (c, false)
    | some entry =>
        let a := entry.trackAlias
        match c.writeControlFrame (c.receiveFrame a (.unsubscribe a entry.trackId)) with
        | (c, false) => (c, false)
        | (c, true) =>
            ({ c with
                assemblers := c.assemblers.map fun slot =>
                  slot.filter fun assembler => assembler.trackAlias != a
                receiveSubscriptions := c.receiveSubscriptions.remove entry.trackId },
              true)

/-! ### Track streams -/

/-- How `parse_track_stream_messages` goes on after a TRACK_OBJECT frame. -/
inductive TrackFrameOutcome where
  | stop
  | skipped
  | emitted (track : TrackId)
  deriving DecidableEq, Repr

def boundAlias (c : Conn) (stream : Nat) : Option TrackAlias :=
  (c.boundStreams.find? (·.1 = stream)).map (·.2)

/-- The first object binds the stream to its alias. -/
def bindStream (c : Conn) (stream : Nat) (a : TrackAlias) : Conn :=
  if (c.boundAlias stream).isNone then
    { c with boundStreams := c.boundStreams ++ [(stream, a)] }
  else
    c

/-- One TRACK_OBJECT frame of stream `stream`.  The loop does not ask whether the
connection is closing. -/
def parseTrackObject (c : Conn) (stream : Nat) (object : Sent TrackObject) :
    Conn × TrackFrameOutcome :=
  if !c.authenticated then
    (c.quiclyClose .authentication "unauthorized", .stop)
  else if c.negotiatedLimits.maxReliableObjectSize < object.message.payload.length then
    (c.quiclyClose .resourceLimit "protocol error: reliable object too large", .stop)
  else
    let a := object.message.trackAlias
    if (c.boundAlias stream).isSome ∧ c.boundAlias stream ≠ some a then
      (c.protocolClose "protocol error: track alias changed", .stop)
    else
      let c := c.bindStream stream a
      match c.receiveSubscriptions.findByAlias a with
      | none => (c, .skipped)
      | some track =>
          if !(trackProfile track).reliable then
            (c.protocolClose "protocol error: stream on datagram track", .stop)
          else
            (c.emit (.object track (c.receiveGeneration a) object.message.groupId
              object.message.objectId object.message.payload [object.track]),
              .emitted track)

def receiveTrackObject (c : Conn) (stream : Nat) (object : Sent TrackObject) : Conn :=
  (c.parseTrackObject stream object).1

/-! ### Datagrams -/

/-- The surroundings of one datagram: the assembler window, whether a slot can
be allocated or enlarged, whether the object's copy can, and the codec. -/
structure ReceiveEnv where
  window : Nat
  now : Nat
  allocatesSlot : Bool
  enlarges : Bool
  allocatesObject : Bool
  codec : FecCodec

def completedObjectsLimit : Nat := 2048

/-- Envelope checks of an FEC datagram. -/
def datagramValid (c : Conn) (datagram : Datagram) : Bool :=
  let header := datagram.header
  0 < header.totalSymbols && header.totalSymbols ≤ fecMaxTotalSymbols &&
    0 < header.symbolSize && header.symbolSize ≤ fecMaxSymbolSize &&
    0 < header.dataSymbols && header.dataSymbols ≤ header.totalSymbols &&
    header.symbolIndex < header.totalSymbols &&
    header.originalSize ≤ c.negotiatedLimits.maxFecObjectSize &&
    header.originalSize ≤ header.dataSymbols * header.symbolSize &&
    0 < header.originalSize && datagram.symbol.length == header.symbolSize

def assemblerMatches (header : FecHeader) (assembler : FrameAssembler) : Bool :=
  assembler.trackAlias == header.trackAlias && assembler.groupId == header.groupId &&
    assembler.objectId == header.objectId

/-- `transport_find_assembler`: the slot of the object. -/
def findAssembler (c : Conn) (header : FecHeader) : Option (Nat × FrameAssembler) :=
  c.assemblers.zipIdx.findSome? fun (slot, index) =>
    (slot.filter (assemblerMatches header)).map fun assembler => (index, assembler)

/-- Slot for a new object: the first free one in ring order, else the one idle
for longest. -/
def selectSlot (c : Conn) (window : Nat) : List Nat → (selected : Nat) → Nat
  | [], selected => selected
  | offset :: rest, selected =>
      let index := (c.assemblerIndex + offset) % window
      match c.assemblers.getD index none with
      | none => index
      | some assembler =>
          match c.assemblers.getD selected none with
          | none => selected
          | some best =>
              selectSlot c window rest
                (if assembler.lastActivity < best.lastActivity then index else selected)

def freshAssembler (header : FecHeader) (now : Nat) : FrameAssembler where
  trackAlias := header.trackAlias
  groupId := header.groupId
  objectId := header.objectId
  totalSymbols := header.totalSymbols
  dataSymbols := header.dataSymbols
  symbolSize := header.symbolSize
  originalSize := header.originalSize
  priority := header.priority
  lastActivity := now
  received := []

/-- Take a slot for a new object, losing the object that held it; `none` when
the slot's buffers cannot be allocated. -/
def openAssembler (c : Conn) (env : ReceiveEnv) (header : FecHeader) :
    Conn × Option (Nat × FrameAssembler) :=
  let selected := c.selectSlot env.window (List.range env.window)
    (c.assemblerIndex % env.window)
  let c :=
    match c.assemblers.getD selected none with
    | none => c
    | some lost =>
        match c.receiveSubscriptions.findByAlias lost.trackAlias with
        | none => c
        | some track => c.emit (.objectLost track lost.groupId lost.objectId)
  let c := { c with assemblerIndex := (selected + 1) % env.window }
  if !env.allocatesSlot then
    ({ c with assemblers := c.assemblers.set selected none }, none)
  else
    let assembler := freshAssembler header env.now
    ({ c with assemblers := c.assemblers.set selected (some assembler) },
      some (selected, assembler))

def symbolAt (assembler : FrameAssembler) (index : Nat) : Option Bytes :=
  (assembler.received.find? (·.message.header.symbolIndex = index)).map (·.message.symbol)

def acceptSymbol (assembler : FrameAssembler) (datagram : Sent Datagram) (now : Nat) :
    FrameAssembler :=
  if (symbolAt assembler datagram.message.header.symbolIndex).isSome then
    assembler
  else
    { assembler with
      received := assembler.received ++ [datagram]
      lastActivity := now }

/-- The object's source blocks, once enough symbols are there to decode. -/
def assembledBlocks (codec : FecCodec) (rateless : Bool) (assembler : FrameAssembler) :
    Option (List Bytes) :=
  if assembler.received.length < assembler.dataSymbols then
    none
  else
    let source := (List.range assembler.dataSymbols).map (symbolAt assembler)
    if source.all Option.isSome then
      some (source.map (·.getD []))
    else if assembler.totalSymbols ≤ assembler.dataSymbols then
      none
    else
      codec.decode (fecTypeFor rateless assembler.totalSymbols) assembler.dataSymbols
        assembler.symbolSize ((List.range assembler.totalSymbols).map (symbolAt assembler))

/-- Deliver a decoded object. -/
def completeObject (c : Conn) (slot : Nat) (track : TrackId) (assembler : FrameAssembler)
    (blocks : List Bytes) : Conn :=
  let a := assembler.trackAlias
  let generation := c.receiveGeneration a
  let completed : CompletedObject :=
    { generation := generation
      trackAlias := a
      groupId := assembler.groupId
      objectId := assembler.objectId }
  let c := { c with
    completedObjects := (completed :: c.completedObjects).take completedObjectsLimit }
  let c :=
    if track.isRatelessData then
      (c.setObjectGap a ((c.objectGap a).markObjectDelivered assembler.objectId)
        ).recoveryMarkDelivered a assembler.groupId assembler.objectId
    else
      c
  { c.emit (.object track generation assembler.groupId assembler.objectId
      (blocks.flatten.take assembler.originalSize)
      (assembler.received.map Sent.track)) with
    assemblers := c.assemblers.set slot none }

/-- Store the symbol in its assembler and deliver the object if it is complete. -/
def assemble (c : Conn) (env : ReceiveEnv) (track : TrackId) (slot : Nat)
    (assembler : FrameAssembler) (datagram : Sent Datagram) : Conn :=
  let header := datagram.message.header
  if assembler.totalSymbols < header.totalSymbols ∧ !env.enlarges then
    c
  else
    let assembler :=
      { assembler with totalSymbols := max assembler.totalSymbols header.totalSymbols }
    let assembler := acceptSymbol assembler datagram env.now
    let c := { c with assemblers := c.assemblers.set slot (some assembler) }
    match assembledBlocks env.codec (trackProfile track).fecRateless assembler with
    | none => c
    | some blocks =>
        if !env.allocatesObject then c else c.completeObject slot track assembler blocks

/-- The object was delivered before, or is too old to tell. -/
def duplicateObject (c : Conn) (track : TrackId) (header : FecHeader) : Bool :=
  c.completedObjects.any (fun completed =>
    completed.trackAlias == header.trackAlias &&
      completed.generation == c.receiveGeneration header.trackAlias &&
      completed.groupId == header.groupId && completed.objectId == header.objectId) ||
    (track.isRatelessData &&
      (c.objectGap header.trackAlias).objectWasDelivered header.objectId)

/-- `on_receive_datagram_frame` for an FEC datagram. -/
def receiveDatagram (c : Conn) (env : ReceiveEnv) (datagram : Sent Datagram) : Conn :=
  let header := datagram.message.header
  if c.closed.isSome || !c.authenticated then
    c
  else
    match c.receiveSubscriptions.findByAlias header.trackAlias with
    | none => c
    | some track =>
        if (trackProfile track).reliable then
          c.protocolClose "protocol error: datagram on reliable track"
        else if !c.datagramValid datagram.message then
          c
        else if c.duplicateObject track header then
          c
        else
          let c :=
            if track.isRatelessData then
              c.setObjectGap header.trackAlias
                ((c.objectGap header.trackAlias).observe header.groupId header.objectId)
            else
              c
          match c.findAssembler header with
          | some (slot, assembler) =>
              if assembler.symbolSize ≠ header.symbolSize ∨
                  assembler.dataSymbols ≠ header.dataSymbols ∨
                  assembler.originalSize ≠ header.originalSize then
                c
              else
                c.assemble env track slot assembler datagram
          | none =>
              match c.openAssembler env header with
              | (c, none) => c
              | (c, some (slot, assembler)) =>
                  c.assemble env track slot assembler datagram

end Conn

namespace Transport

/-! ### The publisher's side of the control stream -/

def updateConn (t : Transport) (connId : Nat) (update : Conn → Conn) : Transport :=
  { t with conns := Keyed.adjust Conn.id connId update t.conns }

/-- The alias names another track. -/
def aliasCollides (c : Conn) (a : TrackAlias) (track : TrackId) : Bool :=
  match c.sendSubscriptions.findByAlias a with
  | none => false
  | some aliased => aliased.key != track.key

def receiveSubscribe (t : Transport) (c : Conn) (a : TrackAlias) (track : TrackId) :
    Transport :=
  if aliasCollides c a track then
    t.setConn (c.protocolClose "protocol error: track alias collision")
  else
    match c.sendSubscriptions.add track a with
    | none => t.setConn (c.quiclyClose .resourceLimit "protocol error: too many tracks")
    | some table =>
        t.setConn ((t.checkpointMemberAdded { c with sendSubscriptions := table } track a
          ).emit (.subscribe track))

def receiveUnsubscribe (t : Transport) (c : Conn) (a : TrackAlias) (track : TrackId) :
    Transport :=
  (t.checkpointMemberRemoved c track a).updateConn c.id fun c =>
    { c with sendSubscriptions := c.sendSubscriptions.remove track }.emit
      (.unsubscribe track)

def receiveCheckpointAck (t : Transport) (c : Conn) (ack : TrackCheckpointAck) :
    Transport :=
  match (c.sendSubscriptions.findByAlias ack.trackAlias).filter TrackId.isRatelessData with
  | none =>
      t.setConn (c.protocolClose "protocol error: invalid recovery checkpoint ACK")
  | some track =>
      match t.checkpointAcked c ack track with
      | none =>
          t.setConn (c.protocolClose "protocol error: invalid recovery checkpoint ACK")
      | some t => t

/-- One control frame received from connection `connId`. -/
def receiveControlFrame (t : Transport) (env : RepairEnv) (connId : Nat)
    (frame : ControlFrame) : Transport :=
  match Keyed.lookup Conn.id connId t.conns with
  | none => t
  | some c =>
      if c.closed.isSome then
        t
      else if !c.helloReceived then
        t.setConn (c.protocolClose "protocol error: HELLO must be first")
      else
        let unauthorized := t.setConn (c.quiclyClose .authentication "unauthorized")
        let invalidTrack := t.setConn (c.protocolClose "protocol error: invalid track")
        match frame with
        | .subscribe a track =>
            if !c.authenticated then unauthorized
            else if !trackIdValid track then invalidTrack
            else t.receiveSubscribe c a track
        | .unsubscribe a track =>
            if !c.authenticated then unauthorized
            else if !trackIdValid track then invalidTrack
            else t.receiveUnsubscribe c a track
        | .keyframeRequest _ track =>
            if !c.authenticated then unauthorized
            else if !trackIdValid track then invalidTrack
            else t.setConn (c.emit (.keyframeRequest track))
        | .unicast payload =>
            if c.negotiatedLimits.maxReliableObjectSize < payload.length then
              t.setConn (c.quiclyClose .resourceLimit "protocol error: payload too large")
            else if !c.authenticated then unauthorized
            else
              t.setConn (c.emit (.object { type := .input, flags := 0, name := [] } 0 0 0
                payload []))
        | .nack nack =>
            if !c.authenticated then unauthorized else t.receiveNack env c nack
        | .trackCheckpoint checkpoint => t.setConn (c.receiveTrackCheckpoint checkpoint)
        | .trackCheckpointAck ack =>
            if !c.authenticated then
              t.setConn (c.protocolClose "protocol error: invalid recovery checkpoint ACK")
            else
              t.receiveCheckpointAck c ack
        | .trackEnd finish => t.setConn (c.receiveTrackEnd finish)

end Transport

end Qlinq
