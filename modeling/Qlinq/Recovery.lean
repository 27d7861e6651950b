import Qlinq.Datagram

namespace Qlinq

/-! The receiver's recovery windows and cumulative checkpoint ACKs. -/

namespace ObjectGapState

def findRecoveryWindow (state : ObjectGapState)
    (groupId firstObjectId finalObjectId : Nat) : Option RecoveryWindow :=
  state.recoveryWindows.find? fun window =>
    window.groupId = groupId ∧ window.firstObjectId = firstObjectId ∧
      window.finalObjectId = finalObjectId

/-- The window that starts first. -/
def earliest : List RecoveryWindow → Option RecoveryWindow
  | [] => none
  | window :: rest =>
      match earliest rest with
      | none => some window
      | some other =>
          if other.firstObjectId < window.firstObjectId then some other else some window

/-- Extend a completed window over the complete windows of its group that
follow.  The fuel is the number of windows. -/
def completedThrough (windows : List RecoveryWindow) (groupId : Nat) :
    Nat → Nat → Nat
  | 0, finalObjectId => finalObjectId
  | fuel + 1, finalObjectId =>
      match earliest (windows.filter fun window => finalObjectId < window.firstObjectId) with
      | none => finalObjectId
      | some next =>
          if next.complete && next.groupId == groupId then
            completedThrough windows groupId fuel next.finalObjectId
          else
            finalObjectId

/-- Objects of a new window that were not delivered yet. -/
def missingObjects (state : ObjectGapState) (firstObjectId count : Nat) : BitVec 32 :=
  (List.range count).foldl (fun mask bit =>
    if state.objectIsRecentlyDelivered (firstObjectId + bit) then
      mask
    else
      mask ||| (1#32 <<< bit)) 0

def newWindow (state : ObjectGapState) (groupId firstObjectId finalObjectId : Nat) :
    RecoveryWindow where
  groupId := groupId
  firstObjectId := firstObjectId
  finalObjectId := finalObjectId
  missingMask := state.missingObjects firstObjectId (finalObjectId - firstObjectId + 1)

/-- The object is not past the last announced one. -/
def announcedThrough (state : ObjectGapState) (objectId : Nat) : Bool :=
  match state.lastCheckpointObjectId with
  | none => false
  | some last => objectId ≤ last

/-- A window that starts at the object leaves a gap behind the last announced one
or overlaps it. -/
def discontinuous (state : ObjectGapState) (firstObjectId : Nat) : Bool :=
  match state.lastCheckpointObjectId with
  | none => false
  | some last => last = uint64Max || firstObjectId != last + 1

/-- The object lies before the last announced one. -/
def regresses (state : ObjectGapState) (objectId : Nat) : Bool :=
  match state.lastCheckpointObjectId with
  | none => false
  | some last => objectId < last

def retirePending (state : ObjectGapState) (groupId finalObjectId : Nat) :
    ObjectGapState :=
  if state.pendingMask ≠ 0 ∧ state.groupId = groupId ∧
      state.pendingBase ≤ finalObjectId then
    let distance := finalObjectId - state.pendingBase
    let covered : BitVec 32 :=
      if 31 ≤ distance then BitVec.allOnes 32 else (1#32 <<< (distance + 1)) - 1
    { state with pendingMask := state.pendingMask &&& ~~~covered }
  else
    state

def dropWindowsThrough (state : ObjectGapState) (groupId finalObjectId : Nat) :
    ObjectGapState :=
  { state with
    recoveryWindows := state.recoveryWindows.filter fun window =>
      !(window.groupId == groupId && window.finalObjectId ≤ finalObjectId) }

def clearMissing (state : ObjectGapState) (groupId objectId : Nat) : ObjectGapState :=
  { state with
    recoveryWindows := state.recoveryWindows.map fun window =>
      if window.groupId = groupId ∧ window.covers objectId then
        { window with
          missingMask := window.missingMask &&&
            ~~~(1#32 <<< (objectId - window.firstObjectId)) }
      else
        window }

def queueMissingObjects (state : ObjectGapState)
    (groupId firstMissing missingCount : Nat) : ObjectGapState :=
  if missingCount = 0 ∨ 32 < missingCount then
    state
  else
    let state :=
      if state.pendingMask = 0 then
        { state with pendingBase := firstMissing, groupId := groupId }
      else
        state
    if firstMissing < state.pendingBase ∨ 32 ≤ firstMissing - state.pendingBase then
      state
    else
      let offset := firstMissing - state.pendingBase
      let count := min missingCount (32 - offset)
      let bits : BitVec 32 :=
        if count = 32 then BitVec.allOnes 32 else (1#32 <<< count) - 1
      { state with pendingMask := state.pendingMask ||| (bits <<< offset) }

/-- Gap tracking of a rateless DATA datagram. -/
def observe (state : ObjectGapState) (groupId objectId : Nat) : ObjectGapState :=
  match state.lastSeen with
  | none => { state with lastSeen := some objectId }
  | some lastSeen =>
      if lastSeen < objectId then
        let state :=
          if 1 < objectId - lastSeen then
            state.queueMissingObjects groupId (lastSeen + 1) (objectId - (lastSeen + 1))
          else
            state
        { state with lastSeen := some objectId }
      else if state.pendingMask ≠ 0 ∧ state.pendingBase ≤ objectId ∧
          objectId - state.pendingBase < 32 then
        { state with
          pendingMask := state.pendingMask &&& ~~~(1#32 <<< (objectId - state.pendingBase)) }
      else
        state

end ObjectGapState

namespace Conn

def sendCheckpointAck (c : Conn) (a : TrackAlias) (groupId finalObjectId : Nat) :
    Conn × Bool :=
  if !c.checkpointCapable then
    (c, false)
  else
    c.writeControlFrame (c.receiveFrame a (.trackCheckpointAck
      { trackAlias := a, groupId := groupId, finalObjectId := finalObjectId }))

def retireRecoveryThrough (c : Conn) (a : TrackAlias) (groupId finalObjectId : Nat) :
    Conn :=
  { c.setObjectGap a ((c.objectGap a).retirePending groupId finalObjectId) with
    assemblers := c.assemblers.map fun slot => slot.filter fun assembler =>
      !(assembler.trackAlias == a && assembler.groupId == groupId &&
        assembler.objectId ≤ finalObjectId) }

/-- `acknowledge_completed_recovery_windows`.  Every round drops the window that
starts first, so the fuel is one more than the number of windows. -/
def acknowledgeRounds (a : TrackAlias) : Nat → Conn → Conn × Bool
  | 0, c => (c, true)
  | fuel + 1, c =>
      let windows := (c.objectGap a).recoveryWindows
      match ObjectGapState.earliest windows with
      | none => (c, true)
      | some first =>
          if !first.complete then
            (c, true)
          else
            let finalObjectId := ObjectGapState.completedThrough windows first.groupId
              windows.length first.finalObjectId
            if !c.streamCanAccept then
              -- Completed windows wait until their ACK can be retained.
              (c, true)
            else
              match c.sendCheckpointAck a first.groupId finalObjectId with
              | (c, false) => (c, false)
              | (c, true) =>
                  let c := c.retireRecoveryThrough a first.groupId finalObjectId
                  acknowledgeRounds a fuel (c.setObjectGap a
                    ((c.objectGap a).dropWindowsThrough first.groupId finalObjectId))

def acknowledgeCompletedRecoveryWindows (c : Conn) (a : TrackAlias) : Conn × Bool :=
  acknowledgeRounds a ((c.objectGap a).recoveryWindows.length + 1) c

/-- `transport_protocol_flush_recovery_acks`. -/
def flushRecoveryAcks (c : Conn) : Conn :=
  if !c.authenticated || c.closed.isSome then
    c
  else
    c.receiveSubscriptions.entries.foldl (fun c entry =>
      if entry.trackId.isRatelessData then
        (c.acknowledgeCompletedRecoveryWindows entry.trackAlias).1
      else
        c) c

/-- Track a recovery window that was not announced before. -/
def openWindow (c : Conn) (a : TrackAlias) (window : RecoveryWindow)
    (acknowledge : Bool) : Conn × Bool :=
  let state :=
    { c.objectGap a with lastCheckpointObjectId := some window.finalObjectId }
  let c := { c with acceptedWindows := c.acceptedWindows ++ [c.receiveFrame a (a, window)] }
  if acknowledge then
    (c.setObjectGap a
      { state with recoveryWindows := state.recoveryWindows ++ [window] }
      ).acknowledgeCompletedRecoveryWindows a
  else if window.complete then
    (c.setObjectGap a state, true)
  else
    (c.setObjectGap a { state with recoveryWindows := state.recoveryWindows ++ [window] },
      true)

/-- `receive_recovery_checkpoint`; a `false` answer is a protocol error. -/
def receiveRecoveryCheckpoint (c : Conn) (a : TrackAlias)
    (groupId firstObjectId finalObjectId : Nat) (acknowledge : Bool) : Conn × Bool :=
  if finalObjectId < firstObjectId ∨
      recoveryWindowObjects ≤ finalObjectId - firstObjectId then
    (c, false)
  else
    let state := c.objectGap a
    if (state.findRecoveryWindow groupId firstObjectId finalObjectId).isSome then
      (c, true)
    else if state.announcedThrough finalObjectId then
      if acknowledge then c.sendCheckpointAck a groupId finalObjectId else (c, true)
    else if state.discontinuous firstObjectId then
      (c, false)
    else if recoveryMaxWindows ≤ state.recoveryWindows.length then
      (c, false)
    else
      c.openWindow a (state.newWindow groupId firstObjectId finalObjectId) acknowledge

def recoveryMarkDelivered (c : Conn) (a : TrackAlias) (groupId objectId : Nat) : Conn :=
  ((c.setObjectGap a ((c.objectGap a).clearMissing groupId objectId)
    ).acknowledgeCompletedRecoveryWindows a).1

end Conn

end Qlinq
