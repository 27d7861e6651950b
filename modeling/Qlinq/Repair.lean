import Qlinq.Publish

namespace Qlinq

/-! Answers to NACKs, built from the sent-object cache. -/

def repairMaxSymbols : Nat := 64

structure RepairBatch where
  indices : List Nat
  totalSymbols : Nat
  symbolSize : Nat
  symbols : List Bytes
  deriving DecidableEq, Repr

def insertIndex (index : Nat) : List Nat → List Nat
  | [] => [index]
  | other :: rest =>
      if other ≤ index then other :: insertIndex index rest else index :: other :: rest

def dropRepeats : List Nat → List Nat
  | [] => []
  | [index] => [index]
  | index :: other :: rest =>
      if index = other then dropRepeats (other :: rest)
      else index :: dropRepeats (other :: rest)

/-- `transport_repair_normalize_indices`: insertion sort, then one of each. -/
def normalizeIndices (indices : List Nat) : List Nat :=
  dropRepeats (indices.foldl (fun sorted index => insertIndex index sorted) [])

/-- Requested indices, once each; `none` when one is out of range or there are
too many. -/
def appendUnique : List Nat → List Nat → Option (List Nat)
  | [], batch => some batch
  | index :: rest, batch =>
      if fecMaxTotalSymbols ≤ index then
        none
      else if index ∈ batch then
        appendUnique rest batch
      else if repairMaxSymbols ≤ batch.length then
        none
      else
        appendUnique rest (batch ++ [index])

/-- `transport_repair_build`.  Allocation is assumed to succeed. -/
def repairBuild (codec : FecCodec) (object : SentObject) (wholeObject : Bool)
    (missing : List Nat) : Option RepairBatch :=
  if object.data = [] ∨ object.dataSymbols = 0 ∨ object.symbolSize = 0 then
    none
  else
    let requested :=
      if wholeObject then
        some (List.range (min object.dataSymbols repairMaxSymbols))
      else
        appendUnique (missing.take repairMaxSymbols) []
    match requested with
    | none => none
    | some [] => none
    | some indices =>
        let highest := indices.foldl max 0
        let rateless := (trackProfile object.trackId).fecRateless
        let needed :=
          if object.dataSymbols ≤ highest then highest - object.dataSymbols + 1 else 0
        let paritySymbols :=
          if rateless then needed else max needed (object.totalSymbols - object.dataSymbols)
        let totalSymbols := object.dataSymbols + paritySymbols
        if 65535 < totalSymbols then
          none
        else
          (symbolBlocks codec (trackProfile object.trackId) object.data object.symbolSize
              object.dataSymbols paritySymbols).map fun blocks =>
            { indices := indices
              totalSymbols := totalSymbols
              symbolSize := object.symbolSize
              symbols := indices.map fun index => blocks.getD index [] }

def repairBuildRateless (codec : FecCodec) (object : SentObject) (requested : Nat) :
    Option RepairBatch :=
  if (trackProfile object.trackId).fecRateless = false ∨ requested = 0 ∨
      object.nextRepairSymbol < object.dataSymbols ∨
      fecMaxTotalSymbols ≤ object.nextRepairSymbol then
    none
  else
    let count := min (min requested repairMaxSymbols)
      (fecMaxTotalSymbols - object.nextRepairSymbol)
    repairBuild codec object false
      ((List.range count).map (object.nextRepairSymbol + ·))

def repairBuildSystematicFallback (codec : FecCodec) (object : SentObject)
    (requested : Nat) : Option RepairBatch :=
  if requested = 0 ∨ (trackProfile object.trackId).fecRateless = false ∨
      object.nextRepairSymbol < fecMaxTotalSymbols ∨ object.dataSymbols = 0 ∨
      object.dataSymbols ≤ object.nextSystematicRepairSymbol then
    none
  else
    let count := min (min requested repairMaxSymbols) object.dataSymbols
    repairBuild codec object false ((List.range count).map fun i =>
      (object.nextSystematicRepairSymbol + i) % object.dataSymbols)

/-- `transport_repair_commit_rateless`; `none` leaves the object unchanged. -/
def repairCommitRateless (object : SentObject) (batch : RepairBatch) (admitted : Nat) :
    Option SentObject :=
  if admitted = 0 ∨ batch.indices.length < admitted ∨
      fecMaxTotalSymbols ≤ object.nextRepairSymbol ∨
      fecMaxTotalSymbols - object.nextRepairSymbol < admitted ∨
      batch.indices.take admitted ≠
        (List.range admitted).map (object.nextRepairSymbol + ·) then
    none
  else
    some { object with nextRepairSymbol := object.nextRepairSymbol + admitted }

def repairCommitSystematicFallback (object : SentObject) (batch : RepairBatch)
    (admitted : Nat) : Option SentObject :=
  if admitted = 0 ∨ batch.indices.length < admitted ∨ object.dataSymbols = 0 ∨
      object.dataSymbols ≤ object.nextSystematicRepairSymbol ∨
      batch.indices.take admitted ≠ (List.range admitted).map (fun i =>
        (object.nextSystematicRepairSymbol + i) % object.dataSymbols) then
    none
  else
    some { object with
      nextSystematicRepairSymbol :=
        (object.nextSystematicRepairSymbol + admitted) % object.dataSymbols }

/-- The surroundings of one NACK: the two request limiters, the codec and how
many packets of the answer are queued. -/
structure RepairEnv where
  requestAllowed : Bool
  aggregateAllowed : Bool
  codec : FecCodec
  queues : Nat

/-- One packet of a repair batch. -/
def repairPacket (c : Conn) (a : TrackAlias) (cached : SentObject) (batch : RepairBatch)
    (position : Nat) : Sent Datagram :=
  c.sendFrame cached.trackId a
    { header :=
        { trackAlias := a
          isKeyframe := cached.isKeyframe
          priority := cached.priority
          pathId := 0
          groupId := cached.groupId
          objectId := cached.objectId
          symbolIndex := batch.indices.getD position 0
          totalSymbols := batch.totalSymbols
          dataSymbols := cached.dataSymbols
          symbolSize := batch.symbolSize
          originalSize := cached.size }
      symbol := batch.symbols.getD position [] }

namespace SentCache

/-- Replace one entry by an updated version of itself. -/
def update (cache : SentCache) (old new : SentObject) : SentCache :=
  { cache with
    entries := cache.entries.map fun slot => if slot = some old then some new else slot }

end SentCache

namespace Transport

/-- The batch that answers a NACK and the entry to keep if it is sent. -/
def repairAnswer (codec : FecCodec) (cached : SentObject) (nack : Nack) :
    Option (RepairBatch × (Nat → Option SentObject)) :=
  if nack.rateless then
    let missingCount :=
      if nack.wholeObject then min cached.dataSymbols repairMaxSymbols
      else min nack.missingCount repairMaxSymbols
    match repairBuildRateless codec cached missingCount with
    | some batch => some (batch, repairCommitRateless cached batch)
    | none =>
        if cached.nextRepairSymbol < fecMaxTotalSymbols then
          none
        else
          (repairBuildSystematicFallback codec cached missingCount).map fun batch =>
            (batch, repairCommitSystematicFallback cached batch)
  else
    let missing := nack.indices.take (min nack.missingCount repairMaxSymbols)
    if missing.any (fecMaxTotalSymbols ≤ ·) then
      none
    else
      (repairBuild codec cached nack.wholeObject (normalizeIndices missing)).map
        fun batch => (batch, fun _ => some cached)

/-- A NACK received on `c`. -/
def receiveNack (t : Transport) (env : RepairEnv) (c : Conn) (nack : Nack) :
    Transport :=
  if !env.requestAllowed then
    t
  else
    match c.sendSubscriptions.findByAlias nack.trackAlias with
    | none => t
    | some track =>
        if nack.rateless &&
            (!(trackProfile track).fecRateless || !c.hasCapability capRatelessRepair) then
          t.setConn (c.protocolClose "protocol error: repair mode mismatch")
        else
          match t.sentCache.find track nack.groupId nack.objectId with
          | none => t
          | some cached =>
              if !env.aggregateAllowed then
                t
              else
                match repairAnswer env.codec cached nack with
                | none => t
                | some (batch, commit) =>
                    let queued := min env.queues batch.indices.length
                    let packets := (List.range queued).map
                      (repairPacket c nack.trackAlias cached batch)
                    let kept := (commit queued).getD cached
                    { t with sentCache := t.sentCache.update cached kept }.setConn
                      { c with datagrams := c.datagrams ++ packets }

end Transport

end Qlinq
