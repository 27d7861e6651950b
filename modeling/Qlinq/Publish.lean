import Qlinq.Transport

namespace Qlinq

/-! Publication: the reliable and the datagram path, the grouping buffer and
track completion. -/

/-- The surroundings of one pass over the recipients. -/
structure FlushEnv where
  conn : Nat → ConnEnv
  storeAllocates : Bool

/-- The surroundings of one publication: `before` and `after` those of a flush
made before and after the record is appended, `direct` those of an ungrouped
publication, `grows` whether the grouping buffer can grow. -/
structure PublishEnv where
  before : FlushEnv
  after : FlushEnv
  direct : FlushEnv
  grows : Bool

def u16be (value : Nat) : Bytes := [UInt8.ofNat (value / 256), UInt8.ofNat value]

/-- Capacity doubled until it covers `needed`; the fuel is the width of
`size_t`. -/
def growCapacity (needed : Nat) : Nat → Nat → Nat
  | 0, capacity => capacity
  | bits + 1, capacity =>
      if capacity < needed then growCapacity needed bits (capacity * 2) else capacity

namespace Transport

/-! ### Reliable tracks -/

/-- Open the track's stream unless one is sending. -/
def openTrackStream (env : ConnEnv) (c : Conn) (track : TrackId) : Conn × Bool :=
  match c.sendSubscriptions.find track with
  | none => (c, true)
  | some entry =>
      if entry.stream.isSome && env.streamSends then
        (c, true)
      else if env.opensStream then
        ({ c with
            sendSubscriptions := c.sendSubscriptions.setStream entry.trackAlias
              (some c.nextStream)
            nextStream := c.nextStream + 1 }, true)
      else
        ({ c with
            sendSubscriptions := c.sendSubscriptions.setStream entry.trackAlias none },
          false)

/-- Check every recipient before a frame is written.  The connections come back
with the streams opened on the way, with the failure if there is one and the
number of recipients. -/
def reliablePreflight (t : Transport) (env : FlushEnv) (object : MoqObject) :
    List Conn → (eligible : Nat) → List Conn × Option PublishResult × Nat
  | [], eligible => ([], none, eligible)
  | c :: rest, eligible =>
      if !t.recipientEligible c object.trackId then
        let (checked, failure, eligible) := reliablePreflight t env object rest eligible
        (c :: checked, failure, eligible)
      else if c.negotiatedLimits.maxReliableObjectSize < object.size then
        (c :: rest, some .invalid, eligible)
      else
        match openTrackStream (env.conn c.id) c object.trackId with
        | (c, false) => (c :: rest, some .error, eligible + 1)
        | (c, true) =>
            if !(env.conn c.id).acceptsBatch then
              (c :: rest, some .backpressure, eligible + 1)
            else
              let (checked, failure, eligible) :=
                reliablePreflight t env object rest (eligible + 1)
              (c :: checked, failure, eligible)

/-- Append one object frame to the recipient's track stream, or to the control
stream of a client without a subscription. -/
def writeObjectFrame (c : Conn) (object : MoqObject) : Conn :=
  match c.sendSubscriptions.find object.trackId with
  | some entry =>
      { c with
        streams := c.streams ++ [(entry.stream.getD 0,
          c.sendFrame object.trackId entry.trackAlias
            { trackAlias := entry.trackAlias
              isKeyframe := object.isKeyframe
              priority := object.priority
              groupId := object.groupId
              objectId := object.objectId
              payload := object.data })] }
  | none =>
      { c with
        control := c.control ++ [⟨object.trackId, 0, .unicast object.data⟩] }

/-- Write the frames until one fails; `delivered` counts the written ones. -/
def reliableWrite (t : Transport) (env : FlushEnv) (object : MoqObject) :
    List Conn → (delivered : Nat) → List Conn × Option PublishResult
  | [], _ => ([], none)
  | c :: rest, delivered =>
      if !t.recipientEligible c object.trackId then
        let (written, failure) := reliableWrite t env object rest delivered
        (c :: written, failure)
      else
        let failure := if delivered = 0 then PublishResult.error else .partialDelivery
        match (env.conn c.id).writesObject with
        | .refused => (c :: rest, some failure)
        | .broken =>
            ((writeObjectFrame c object).quiclyClose .resourceLimit
              "reliable control queue exhausted" :: rest, some failure)
        | .written =>
            let (written, failure) := reliableWrite t env object rest (delivered + 1)
            (writeObjectFrame c object :: written, failure)

def publishReliable (t : Transport) (env : FlushEnv) (object : MoqObject) :
    Transport × PublishResult :=
  if t.limits.maxReliableObjectSize < object.size then
    (t, .invalid)
  else
    match t.reliablePreflight env object t.conns 0 with
    | (conns, some failure, _) => ({ t with conns := conns }, failure)
    | (conns, none, eligible) =>
        match t.reliableWrite env object conns 0 with
        | (conns, some failure) => ({ t with conns := conns }, failure)
        | (conns, none) =>
            ({ t with conns := conns },
              if eligible = 0 then .noRecipients else .delivered)

/-! ### Datagram tracks -/

inductive RecipientOutcome where
  | skipped
  | alreadyDelivered
  | tooLarge
  | attempted (result : PublishResult) (sentSymbols : Nat)
  deriving DecidableEq, Repr

/-- One turn of the recipient loop. -/
def publishRecipient (t : Transport) (env : FlushEnv) (object : MoqObject)
    (symbolSize dataSymbols : Nat) (inFlush : Bool) (c : Conn) :
    Conn × RecipientOutcome :=
  if !t.recipientEligible c object.trackId then
    (c, .skipped)
  else if inFlush && c.fecGroupDelivered then
    (c, .alreadyDelivered)
  else if c.negotiatedLimits.maxFecObjectSize < object.size then
    (c, .tooLarge)
  else
    match publishDatagramToConn (env.conn c.id) c object (trackProfile object.trackId)
        symbolSize dataSymbols with
    | (c, .delivered, sent) =>
        ({ c with fecGroupDelivered := c.fecGroupDelivered || inFlush },
          .attempted .delivered sent)
    | (c, result, sent) => (c, .attempted result sent)

structure Tally where
  eligible : Nat := 0
  delivered : Nat := 0
  maximumSentSymbols : Nat
  partiallyQueued : Bool := false
  failure : PublishResult := .error
  deriving DecidableEq, Repr

def Tally.count (tally : Tally) : RecipientOutcome → Tally
  | .skipped => tally
  | .alreadyDelivered =>
      { tally with eligible := tally.eligible + 1, delivered := tally.delivered + 1 }
  | .tooLarge => { tally with eligible := tally.eligible + 1, failure := .invalid }
  | .attempted result sent =>
      let tally :=
        { tally with maximumSentSymbols := max tally.maximumSentSymbols sent }
      match result with
      | .delivered =>
          { tally with eligible := tally.eligible + 1, delivered := tally.delivered + 1 }
      | .noRecipients => tally
      | .partialDelivery =>
          { tally with eligible := tally.eligible + 1, partiallyQueued := true }
      | .backpressure =>
          { tally with eligible := tally.eligible + 1, failure := .backpressure }
      | _ => { tally with eligible := tally.eligible + 1 }

def Tally.result (tally : Tally) (stored : Bool) : PublishResult :=
  if !stored then
    if tally.delivered = 0 then .error else .partialDelivery
  else if tally.partiallyQueued then
    .partialDelivery
  else if tally.delivered = 0 then
    if tally.eligible = 0 then .noRecipients else tally.failure
  else if tally.delivered = tally.eligible then
    .delivered
  else
    .partialDelivery

/-- Short objects use smaller symbols. -/
def objectSymbolSize (t : Transport) (object : MoqObject) : Nat :=
  min t.datagramSymbolSize object.size

def objectDataSymbols (t : Transport) (object : MoqObject) : Nat :=
  (object.size + t.objectSymbolSize object - 1) / t.objectSymbolSize object

def recipientTurns (t : Transport) (env : FlushEnv) (object : MoqObject)
    (inFlush : Bool) : List (Conn × RecipientOutcome) :=
  t.conns.map (t.publishRecipient env object (t.objectSymbolSize object)
    (t.objectDataSymbols object) inFlush)

def recipientTally (t : Transport) (env : FlushEnv) (object : MoqObject)
    (inFlush : Bool) : Tally :=
  ((t.recipientTurns env object inFlush).map Prod.snd).foldl Tally.count
    { maximumSentSymbols := t.objectDataSymbols object }

/-- Retain a rateless DATA object that a recipient got symbols of. -/
def retainSent (t : Transport) (env : FlushEnv) (object : MoqObject) (tally : Tally)
    (protectCache : Bool) : SentCache × Bool :=
  if object.trackId.isRatelessData && (tally.delivered != 0 || tally.partiallyQueued) then
    t.sentCache.store object tally.maximumSentSymbols (t.objectDataSymbols object)
      (t.objectSymbolSize object) (!protectCache) env.storeAllocates (fun _ => false)
  else
    (t.sentCache, true)

def publishDatagrams (t : Transport) (env : FlushEnv) (object : MoqObject)
    (inFlush : Bool) : Transport × PublishResult :=
  if object.size = 0 ∨ t.publicationFecLimit object.trackId < object.size then
    (t, .invalid)
  else
    let cached := object.trackId.isRatelessData
    let protectCache := cached && checkpointCacheIsProtected object.trackId t.conns false
    if cached && !t.sentCache.canStore object (!protectCache) (fun _ => false) then
      (t, .backpressure)
    else
      let tally := t.recipientTally env object inFlush
      let (sentCache, stored) := t.retainSent env object tally protectCache
      ({ t with
          conns := (t.recipientTurns env object inFlush).map Prod.fst
          sentCache := sentCache }, tally.result stored)

/-! ### Grouping -/

def flagsConflict (t : Transport) (track : TrackId) : Bool :=
  t.conns.any fun c =>
    t.recipientEligible c track &&
      match c.sendSubscriptions.find track with
      | none => false
      | some entry => entry.trackId.flags != track.flags

/-- The part of `transport_publish_impl` around the grouping branch. -/
def publishUngrouped (t : Transport) (env : FlushEnv) (object : MoqObject)
    (inFlush : Bool) : Transport × PublishResult :=
  if !trackIdValid object.trackId || t.flagsConflict object.trackId then
    (t, .invalid)
  else if (trackProfile object.trackId).reliable then
    t.publishReliable env object
  else
    t.publishDatagrams env object inFlush

/-- The object a flush of the grouping buffer publishes. -/
def groupObject (t : Transport) (state : FecTrackState) : MoqObject where
  trackId := t.fecTrackId
  groupId := 0
  objectId := state.nextObjectId
  data := t.fecBuf
  priority := t.fecPriority

/-- The group leaves the buffer and uses up its object id; the last object of a
recovery window is announced. -/
def commitGroup (t : Transport) (state : FecTrackState) (object : MoqObject) :
    Transport :=
  let state :=
    { state with nextObjectId := state.nextObjectId + 1, hasObjects := true }
  let t :=
    { t.setFecTrackState state with
      fecBuf := []
      fecPktCount := 0
      fecFlushPending := false
      published := t.published ++ [object] }
  if (trackProfile state.trackId).fecRateless ∧
      state.nextObjectId % recoveryWindowObjects = 0 then
    t.emitRollingCheckpoint state 0 (state.nextObjectId - recoveryWindowObjects)
      (state.nextObjectId - 1)
  else
    t

/-- `transport_publish_flush_grouped_ex`. -/
def flushGrouped (t : Transport) (env : FlushEnv) : Transport × PublishResult :=
  if t.fecBuf = [] then
    (t, .delivered)
  else
    match t.createFecTrackState t.fecTrackId with
    | none => (t, .error)
    | some (t, state) =>
        let object := t.groupObject state
        match { t with fecFlushPending := true }.publishUngrouped env object true with
        | (t, .delivered) => (t.commitGroup state object, .delivered)
        | (t, .noRecipients) => (t.commitGroup state object, .delivered)
        | (t, result) => (t, result)

/-- Some peer's subscription asks for FEC on the track. -/
def usesFec (t : Transport) (track : TrackId) : Bool :=
  t.conns.any fun c =>
    c.protocolReady && c.authenticated && (!t.isServer || c.closed.isNone) &&
      match c.sendSubscriptions.find track with
      | none => false
      | some entry => (trackProfile entry.trackId).usesFec

/-- Records of the track are grouped. -/
def groupsRecords (t : Transport) (track : TrackId) : Bool :=
  track.type == .data && t.usesFec track

def groupLimit (fecLimit : Nat) : Nat := min fecLimit maxFecGroupSize

/-- A buffered group stands in the record's way: it is pending, or another
track's or priority's. -/
def groupForeign (t : Transport) (object : MoqObject) : Bool :=
  t.fecBuf != [] &&
    (t.fecFlushPending || t.fecTrackId != object.trackId ||
      t.fecPriority != object.priority)

/-- A buffered group has no room for the record. -/
def groupFull (t : Transport) (object : MoqObject) (limit : Nat) : Bool :=
  t.fecBuf != [] &&
    (4 ≤ t.fecPktCount || limit - 2 < object.size ||
      limit - 2 - object.size < t.fecBuf.length)

/-- Empty the buffer if `due`; `some result` refuses the record. -/
def makeRoom (t : Transport) (env : FlushEnv) (due : Bool) :
    Transport × Option PublishResult :=
  if due then
    match t.flushGrouped env with
    | (t, .delivered) => (t, none)
    | (t, .backpressure) => (t, some .backpressure)
    | (t, .partialDelivery) => (t, some .backpressure)
    | (t, _) => (t, some .error)
  else
    (t, none)

/-- A group is begun by its first record. -/
def beginGroup (t : Transport) (object : MoqObject) : Transport :=
  if t.fecBuf = [] then
    { t with
      conns := t.conns.map fun c => { c with fecGroupDelivered := false }
      fecTrackId := object.trackId
      fecPriority := object.priority }
  else
    t

/-- Append the length-prefixed record; `none` when the buffer cannot grow. -/
def appendRecord (t : Transport) (grows : Bool) (object : MoqObject) :
    Option Transport :=
  let needed := t.fecBuf.length + 2 + object.size
  if t.fecBufCap < needed ∧ !grows then
    none
  else
    some { t with
      fecBufCap :=
        if t.fecBufCap < needed then
          growCapacity needed 64 (if t.fecBufCap = 0 then 4096 else t.fecBufCap * 2)
        else
          t.fecBufCap
      fecBuf := t.fecBuf ++ u16be object.size ++ object.data
      fecPktCount := t.fecPktCount + 1 }

/-- Put the record behind the group it belongs to, or refuse it. -/
def stageRecord (t : Transport) (env : PublishEnv) (object : MoqObject) :
    Transport × Option PublishResult :=
  let limit := groupLimit (t.publicationFecLimit object.trackId)
  match t.makeRoom env.before (t.groupForeign object) with
  | (t, some result) => (t, some result)
  | (t, none) =>
      match t.makeRoom env.before (t.groupFull object limit) with
      | (t, some result) => (t, some result)
      | (t, none) =>
          let t := t.beginGroup object
          match t.appendRecord env.grows object with
          | none => (t, some .error)
          | some t => (t, none)

/-- What a flush behind the appended record makes of the record's result. -/
def trailingResult : PublishResult → PublishResult
  | .delivered => .delivered
  | .backpressure => .buffered
  | .partialDelivery => .buffered
  | _ => .error

/-- The group can take no further record. -/
def groupComplete (t : Transport) (limit : Nat) : Bool :=
  4 ≤ t.fecPktCount || limit ≤ t.fecBuf.length

/-- The grouping branch of `transport_publish_impl`. -/
def publishGrouped (t : Transport) (env : PublishEnv) (object : MoqObject) :
    Transport × PublishResult :=
  let fecLimit := t.publicationFecLimit object.trackId
  if maxFecRecordSize < object.size ∨ fecLimit < 2 ∨ fecLimit - 2 < object.size then
    (t, .invalid)
  else
    match t.stageRecord env object with
    | (t, some result) => (t, result)
    | (t, none) =>
        if t.groupComplete (groupLimit fecLimit) then
          let (t, result) := t.flushGrouped env.after
          (t, trailingResult result)
        else
          (t, .buffered)

/-- `transport_publish_ex` on the owner thread. -/
def publish (t : Transport) (env : PublishEnv) (object : MoqObject) :
    Transport × PublishResult :=
  if !trackIdValid object.trackId || t.flagsConflict object.trackId then
    (t, .invalid)
  else if t.groupsRecords object.trackId then
    t.publishGrouped env object
  else
    t.publishUngrouped env.direct object false

/-- Flush the buffer if it holds records of the track. -/
def flushTrack (t : Transport) (env : FlushEnv) (track : TrackId) : Transport × Bool :=
  if t.fecBuf ≠ [] ∧ t.fecTrackId = track then
    match t.flushGrouped env with
    | (t, .delivered) => (t, true)
    | (t, result) => (t, result == .noRecipients)
  else
    (t, true)

/-- Announce the completion of a track to every connection. -/
def announceEnd (t : Transport) (track : TrackId) (state : FecTrackState) :
    Transport × Bool :=
  let finalObjectId := state.nextObjectId - 1
  let turns := t.conns.map (t.finishTrackTo track finalObjectId)
  ({ t with conns := turns.map Prod.fst }.setFecTrackState
    { state with checkpoint := some ⟨0, finalObjectId⟩ }, turns.all Prod.snd)

/-- `transport_finish_track` on the owner thread. -/
def finishTrack (t : Transport) (env : FlushEnv) (track : TrackId) :
    Transport × Bool :=
  if !trackIdValid track || !track.isRatelessData then
    (t, false)
  else
    match t.flushTrack env track with
    | (t, false) => (t, false)
    | (t, true) =>
        match t.findFecTrackState track with
        | none => (t, true)
        | some state => if state.hasObjects then t.announceEnd track state else (t, true)

end Transport

end Qlinq
