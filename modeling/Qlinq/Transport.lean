import Qlinq.Datagram
import Qlinq.Lib.Lowest

namespace Qlinq

/-! The publishing endpoint and its recovery checkpoints. -/

structure FecTrackState where
  trackId : TrackId
  nextObjectId : Nat := 0
  hasObjects : Bool := false
  checkpoint : Option Watermark := none
  deriving DecidableEq, Repr

def hardMaxSubscriptions : Nat := 256

def maxFecGroupSize : Nat := 32768

def maxFecRecordSize : Nat := 65535

/-- `conns` are the server's connections, or the client's only one.
`published` records the group objects that left the grouping buffer. -/
structure Transport where
  isServer : Bool
  limits : TransportLimits
  conns : List Conn := []
  nextConnId : Nat := 0
  sentCache : SentCache
  fecBuf : Bytes := []
  fecBufCap : Nat := 0
  fecTrackId : TrackId
  fecPriority : UInt8 := 0
  fecPktCount : Nat := 0
  fecFlushPending : Bool := false
  fecTracks : List FecTrackState := []
  published : List MoqObject := []

namespace Conn

/-- The connection accepts frames: `transport_finish_track` and
`emit_rolling_checkpoint` skip every other one. -/
def established (c : Conn) : Bool :=
  c.protocolReady && c.authenticated && c.closed.isNone

end Conn

namespace Transport

def recipientEligible (t : Transport) (c : Conn) (track : TrackId) : Bool :=
  c.protocolReady && c.authenticated && c.closed.isNone &&
    (!t.isServer || c.sendSubscriptions.contains track)

def publicationFecLimit (t : Transport) (track : TrackId) : Nat :=
  lowest (t.recipientEligible · track) (·.negotiatedLimits.maxFecObjectSize) t.conns
    t.limits.maxFecObjectSize

def datagramSymbolSize (t : Transport) : Nat :=
  let udpPayloadSize := lowest Conn.protocolReady
    (·.negotiatedLimits.maxUdpPayloadSize) t.conns t.limits.maxUdpPayloadSize
  let symbolSize := if 80 < udpPayloadSize then udpPayloadSize - 80 else 0
  if symbolSize < 1000 then 1000 else symbolSize

def findFecTrackState (t : Transport) (track : TrackId) : Option FecTrackState :=
  Keyed.lookup FecTrackState.trackId track t.fecTracks

/-- `find_fec_track_state` with `create`: slots are never given back. -/
def createFecTrackState (t : Transport) (track : TrackId) :
    Option (Transport × FecTrackState) :=
  match t.findFecTrackState track with
  | some state => some (t, state)
  | none =>
      if t.fecTracks.length < hardMaxSubscriptions then
        some ({ t with fecTracks := t.fecTracks ++ [{ trackId := track }] },
          { trackId := track })
      else
        none

def setFecTrackState (t : Transport) (state : FecTrackState) : Transport :=
  { t with
    fecTracks := Keyed.adjust FecTrackState.trackId state.trackId (fun _ => state)
      t.fecTracks }

def setConn (t : Transport) (c : Conn) : Transport :=
  { t with conns := Keyed.adjust Conn.id c.id (fun _ => c) t.conns }

/-- The recipients' ACKs seen so far by `release_acked_checkpoints`. -/
structure AckScan where
  foundCapableMember : Bool := false
  foundLegacyMember : Bool := false
  minimum : Option Watermark := none

def lowerMinimum (minimum : Option Watermark) (acked : Watermark) :
    Option (Option Watermark) :=
  match minimum with
  | none => some (some acked)
  | some lowest =>
      if acked.objectId < lowest.objectId then
        some (some acked)
      else if acked.groupId ≠ lowest.groupId then
        none
      else
        some minimum

/-- `none` when a participant has acknowledged nothing, or the groups differ. -/
def scanAcks (track : TrackId) : List Conn → AckScan → Option AckScan
  | [], scan => some scan
  | c :: rest, scan =>
      match c.sendSubscriptions.findAlias track with
      | none => scanAcks track rest scan
      | some a =>
          if !c.checkpointCapable then
            scanAcks track rest { scan with foundLegacyMember := true }
          else if !(c.checkpointAck a).participating then
            scanAcks track rest scan
          else
            match (c.checkpointAck a).acked with
            | none => none
            | some acked =>
                match lowerMinimum scan.minimum acked with
                | none => none
                | some minimum =>
                    scanAcks track rest
                      { scan with foundCapableMember := true, minimum := minimum }

def releaseAckedCheckpoints (t : Transport) (track : TrackId) : Transport :=
  match scanAcks track t.conns {} with
  | none => t
  | some scan =>
      if scan.foundLegacyMember then
        t
      else
        match scan.foundCapableMember, scan.minimum with
        | true, some minimum =>
            { t with
              sentCache := t.sentCache.releaseThrough track minimum.groupId
                minimum.objectId }
        | false, _ => { t with sentCache := t.sentCache.releaseTrack track }
        | true, none => t

/-- `transport_publish_checkpoint_member_added` for `c`, a connection of `t`. -/
def checkpointMemberAdded (t : Transport) (c : Conn) (track : TrackId)
    (a : TrackAlias) : Conn :=
  let c :=
    if t.fecFlushPending && track == t.fecTrackId then
      { c with fecGroupDelivered := false }
    else
      c
  if !c.checkpointCapable || !track.isRatelessData then
    c
  else if (c.sendSubscriptions.getState a).isNone then
    c
  else
    let c := c.setCheckpointAck a { participating := true }
    match (t.findFecTrackState track).bind (·.checkpoint) with
    | none => c
    | some last =>
        match c.writeControlFrame (c.sendFrame track a (.trackCheckpoint
            { trackAlias := a
              baseline := true
              groupId := last.groupId
              firstObjectId := last.objectId
              finalObjectId := last.objectId })) with
        | (c, false) => c
        | (c, true) =>
            c.setCheckpointAck a
              { participating := true, sent := some last, acked := some last }

/-- `transport_publish_checkpoint_member_removed`: the state named by the wire
alias is cleared before the track's release. -/
def checkpointMemberRemoved (t : Transport) (c : Conn) (track : TrackId)
    (a : TrackAlias) : Transport :=
  if (c.sendSubscriptions.getState a).isNone then
    t
  else
    (t.setConn (c.setCheckpointAck a {})).releaseAckedCheckpoints track

/-- `transport_publish_checkpoint_connection_removed`, entry by entry. -/
def checkpointConnectionRemoved (t : Transport) (connId : Nat) :
    List Subscription → Transport
  | [] => t
  | entry :: rest =>
      match Keyed.lookup Conn.id connId t.conns with
      | none => t
      | some c =>
          if !(c.checkpointAck entry.trackAlias).participating then
            checkpointConnectionRemoved t connId rest
          else
            checkpointConnectionRemoved
              ((t.setConn (c.setCheckpointAck entry.trackAlias {})).releaseAckedCheckpoints
                entry.trackId) connId rest

/-- `transport_publish_checkpoint_acked`; `none` is a refused ACK. -/
def checkpointAcked (t : Transport) (c : Conn) (ack : TrackCheckpointAck)
    (track : TrackId) : Option Transport :=
  if !c.checkpointCapable then
    none
  else
    let state := c.checkpointAck ack.trackAlias
    match state.sent with
    | none => none
    | some sent =>
        if !state.participating || ack.groupId != sent.groupId ||
            sent.objectId < ack.finalObjectId then
          none
        else
          let advanced :=
            match state.acked with
            | none => true
            | some acked => acked.objectId < ack.finalObjectId
          let state :=
            if advanced then
              { state with acked := some ⟨ack.groupId, ack.finalObjectId⟩ }
            else
              state
          let c := c.setCheckpointAck ack.trackAlias state
          let c := { c with acked := c.acked ++ [c.sendFrame track ack.trackAlias ack] }
          some ((t.setConn c).releaseAckedCheckpoints track)

/-- `checkpoint_cache_is_protected` from a scan of the remaining connections. -/
def checkpointCacheIsProtected (track : TrackId) : List Conn → (found : Bool) → Bool
  | [], found => found
  | c :: rest, found =>
      match c.sendSubscriptions.findAlias track with
      | none => checkpointCacheIsProtected track rest found
      | some a =>
          if !c.checkpointCapable then
            false
          else
            checkpointCacheIsProtected track rest
              (found || (c.checkpointAck a).participating)

/-- One recipient of `emit_rolling_checkpoint`. -/
def emitCheckpointTo (t : Transport) (track : TrackId)
    (groupId firstObjectId finalObjectId : Nat) (c : Conn) : Conn :=
  if !c.established || !c.checkpointCapable then
    c
  else
    match c.sendSubscriptions.findAlias track with
    | none => c
    | some a =>
        let c :=
          if (c.checkpointAck a).participating then
            c
          else
            t.checkpointMemberAdded c track a
        match c.writeControlFrame (c.sendFrame track a (.trackCheckpoint
            { trackAlias := a
              baseline := false
              groupId := groupId
              firstObjectId := firstObjectId
              finalObjectId := finalObjectId })) with
        | (c, false) => c
        | (c, true) =>
            c.setCheckpointAck a
              ((c.checkpointAck a).checkpointMarkSent groupId finalObjectId)

def emitRollingCheckpoint (t : Transport) (state : FecTrackState)
    (groupId firstObjectId finalObjectId : Nat) : Transport :=
  { t with
    conns := t.conns.map
      (t.emitCheckpointTo state.trackId groupId firstObjectId finalObjectId) }.setFecTrackState
    { state with checkpoint := some ⟨groupId, finalObjectId⟩ }

/-- One recipient of `transport_finish_track`, and whether its frame was
written. -/
def finishTrackTo (t : Transport) (track : TrackId) (finalObjectId : Nat) (c : Conn) :
    Conn × Bool :=
  if !c.established then
    (c, true)
  else
    match c.sendSubscriptions.findAlias track with
    | none => (c, true)
    | some a =>
        match c.writeControlFrame (c.sendFrame track a (.trackEnd
            { trackAlias := a, groupId := 0, finalObjectId := finalObjectId })) with
        | (c, false) => (c, false)
        | (c, true) =>
            if !c.checkpointCapable then
              (c, true)
            else
              let c :=
                if (c.checkpointAck a).participating then
                  c
                else
                  t.checkpointMemberAdded c track a
              (c.setCheckpointAck a
                ((c.checkpointAck a).checkpointMarkSent 0 finalObjectId), true)

end Transport

end Qlinq
