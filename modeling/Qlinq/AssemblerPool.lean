import Qlinq.Lib.HashChains
import Qlinq.Lib.Totals
import Qlinq.Lib.WordMask
import Qlinq.Protocol

namespace Qlinq

/-! The slots a connection assembles objects in, their buffers and their index. -/

def hardMaxAssemblers : Nat := 1024

def pointerBytes : Nat := 8

/-- `transport_assembler_required_bytes`: for each symbol a pointer, the symbol, two flags
and an index. -/
def requiredBytes (symbols symbolSize : Nat) : Nat :=
  if symbols = 0 ∨ symbolSize = 0 then 0 else symbols * (pointerBytes + symbolSize + 2 * 1 + 2)

/-- A slot that was released is all zero.  `owned` is set while the slot is indexed; the
buffers and both masks are allocated together. -/
structure AssemblerSlot where
  owned : Bool := false
  trackAlias : TrackAlias := 0
  groupId : Nat := 0
  objectId : Nat := 0
  totalSymbols : Nat := 0
  dataSymbols : Nat := 0
  symbolSize : Nat := 0
  originalSize : Nat := 0
  receivedCount : Nat := 0
  capacitySymbols : Nat := 0
  capacitySymbolSize : Nat := 0
  buffers : Option (List Bytes) := none
  receivedMask : List Bool := []
  priority : UInt8 := 0
  lastActivity : Nat := 0
  deriving DecidableEq, Repr

namespace AssemblerSlot

def live (slot : AssemblerSlot) : Bool := 0 < slot.totalSymbols

def capacityBytes (slot : AssemblerSlot) : Nat :=
  requiredBytes slot.capacitySymbols slot.capacitySymbolSize

def buffer (slot : AssemblerSlot) (index : Nat) : Bytes := (slot.buffers.getD []).getD index []

def received (slot : AssemblerSlot) (index : Nat) : Bool := slot.receivedMask.getD index false

def isObject (slot : AssemblerSlot) (a : TrackAlias) (groupId objectId : Nat) : Bool :=
  slot.trackAlias == a && slot.groupId == groupId && slot.objectId == objectId

/-- The buffers cannot take symbols of this number and size. -/
def tooSmall (slot : AssemblerSlot) (symbols symbolSize : Nat) : Bool :=
  slot.buffers.isNone || slot.capacitySymbols < symbols || slot.capacitySymbolSize < symbolSize

/-- Fresh buffers, each beginning with the symbol the old one held. -/
def copiedBuffers (slot : AssemblerSlot) (symbols symbolSize : Nat) : List Bytes :=
  (List.range symbols).map fun index =>
    if slot.buffers.isSome ∧ index < slot.totalSymbols then
      (slot.buffer index).take slot.symbolSize ++
        List.replicate (symbolSize - slot.symbolSize) 0
    else
      List.replicate symbolSize 0

def copiedMask (slot : AssemblerSlot) (symbols : Nat) : List Bool :=
  (List.range symbols).map fun index =>
    slot.buffers.isSome && index < slot.totalSymbols && slot.received index

/-- The slot with fresh buffers of this capacity. -/
def replaced (slot : AssemblerSlot) (symbols symbolSize : Nat) : AssemblerSlot :=
  { slot with
    buffers := some (slot.copiedBuffers symbols symbolSize)
    receivedMask := slot.copiedMask symbols
    capacitySymbols := symbols
    capacitySymbolSize := symbolSize }

/-- `transport_assembler_grow`; a slot that cannot grow stays as it is. -/
def grow (slot : AssemblerSlot) (symbols symbolSize : Nat) (allocates : Bool) :
    Option AssemblerSlot :=
  if symbols = 0 ∨ symbolSize = 0 then
    none
  else if !slot.tooSmall symbols symbolSize then
    some slot
  else
    let newSymbols := max slot.capacitySymbols symbols
    let newSymbolSize := max slot.capacitySymbolSize symbolSize
    if !allocates then
      none
    else if slot.buffers.isSome ∧ 0 < slot.totalSymbols ∧
        (newSymbols < slot.totalSymbols ∨ newSymbolSize < slot.symbolSize) then
      none
    else
      some (slot.replaced newSymbols newSymbolSize)

/-- The slot starts over with the object of the header. -/
def start (slot : AssemblerSlot) (header : FecHeader) (now : Nat) : AssemblerSlot :=
  { slot with
    receivedMask := List.replicate slot.capacitySymbols false
    trackAlias := header.trackAlias
    groupId := header.groupId
    objectId := header.objectId
    totalSymbols := header.totalSymbols
    dataSymbols := header.dataSymbols
    symbolSize := header.symbolSize
    originalSize := header.originalSize
    priority := header.priority
    receivedCount := 0
    lastActivity := now }

/-- Store a symbol, unless it is there already. -/
def storeSymbol (slot : AssemblerSlot) (index : Nat) (symbol : Bytes) (now : Nat) :
    AssemblerSlot :=
  if slot.received index then
    slot
  else
    { slot with
      buffers := slot.buffers.map fun buffers =>
        buffers.set index (symbol ++ (slot.buffer index).drop slot.symbolSize)
      receivedMask := slot.receivedMask.set index true
      receivedCount := slot.receivedCount + 1
      lastActivity := now }

/-- The decoder writes the symbols that were missing. -/
def fillMissing (slot : AssemblerSlot) (recovered : List Bytes) : AssemblerSlot :=
  { slot with
    buffers := slot.buffers.map fun buffers => buffers.mapIdx fun index old =>
      if index < slot.totalSymbols ∧ !slot.received index then
        (recovered.getD index []).take slot.symbolSize ++
          old.drop ((recovered.getD index []).take slot.symbolSize).length
      else
        old }

end AssemblerSlot

/-- `transport_receive_bucket`. -/
def receiveBucket (a : TrackAlias) (groupId objectId : Nat) : Nat :=
  let key : UInt64 := UInt64.ofNat objectId ^^^
    (UInt64.ofNat groupId * (0x9e3779b97f4a7c15 : UInt64)) ^^^ (UInt64.ofNat a.toNat <<< 56)
  let key : UInt64 := key ^^^ (key >>> 30)
  let key : UInt64 := key * 0xbf58476d1ce4e5b9
  let key : UInt64 := key ^^^ (key >>> 27)
  (key &&& 2047).toNat

/-- `chains` holds the buckets and every slot's `hash_next`; `active` has a bit for each
slot. -/
structure AssemblerPool where
  slots : List AssemblerSlot := List.replicate hardMaxAssemblers {}
  chains : HashChains := .empty
  count : Nat := 0
  active : WordMask (hardMaxAssemblers / 64) := .zero

namespace AssemblerPool

def slot (pool : AssemblerPool) (index : Nat) : AssemblerSlot := pool.slots.getD index {}

def setSlot (pool : AssemblerPool) (index : Nat) (slot : AssemblerSlot) : AssemblerPool :=
  { pool with slots := pool.slots.set index slot }

def bucketAt (pool : AssemblerPool) (index : Nat) : Nat :=
  receiveBucket (pool.slot index).trackAlias (pool.slot index).groupId (pool.slot index).objectId

/-- `transport_next_assembler`. -/
def nextAssembler (pool : AssemblerPool) (first : Nat) : Nat :=
  if pool.count = 0 ∨ hardMaxAssemblers ≤ first then
    hardMaxAssemblers
  else
    pool.active.nextSet first

/-- `transport_find_assembler`. -/
def findAssembler (pool : AssemblerPool) (a : TrackAlias) (groupId objectId : Nat) :
    Option Nat :=
  pool.chains.search (fun index => (pool.slot index).isObject a groupId objectId)
    (hardMaxAssemblers + 1) (pool.chains.head (receiveBucket a groupId objectId))

/-- `transport_unindex_assembler`. -/
def unindexAssembler (pool : AssemblerPool) (index : Nat) : AssemblerPool :=
  if !(pool.slot index).owned then
    pool
  else
    let disowned := pool.setSlot index { pool.slot index with owned := false }
    match pool.chains.unlink (hardMaxAssemblers + 1) (pool.bucketAt index) index with
    | (chains, true) =>
        { disowned with
          chains := chains.setNext index 0
          count := pool.count - 1
          active := pool.active.clear index }
    | (chains, false) => { disowned with chains := chains.setNext index 0 }

/-- `transport_index_assembler`. -/
def indexAssembler (pool : AssemblerPool) (index : Nat) : AssemblerPool :=
  { pool.setSlot index { pool.slot index with owned := true } with
    chains := pool.chains.push (pool.bucketAt index) index
    count := pool.count + 1
    active := pool.active.set index }

def capacityBytes (pool : AssemblerPool) : Nat :=
  Totals.total AssemblerSlot.capacityBytes pool.slots

/-- The slot a new object takes: the first free one of the window from the cursor on, else
the one idle for longest. -/
def selectSlot (pool : AssemblerPool) (cursor window : Nat) : List Nat → Nat → Nat
  | [], selected => selected
  | offset :: rest, selected =>
      let index := (cursor + offset) % window
      if !(pool.slot index).live then
        index
      else
        pool.selectSlot cursor window rest
          (if (pool.slot index).lastActivity < (pool.slot selected).lastActivity then
            index
          else
            selected)

end AssemblerPool

/-- The endpoint's account of assembler memory.  `elsewhere` is what the assemblers of the
other connections hold, and `peak` the most that ever was allocated at one time, the
replacement of a buffer included. -/
structure AssemblerMemory where
  maxBytes : Nat
  bytes : Nat := 0
  resourceLimitErrors : Nat := 0
  elsewhere : Nat := 0
  peak : Nat := 0
  deriving DecidableEq, Repr

/-- The assemblers of one connection and the account they are charged to. -/
structure AssemblerStore where
  pool : AssemblerPool
  memory : AssemblerMemory

namespace AssemblerStore

/-- What all assemblers hold, of this connection and of the others. -/
def heldBytes (store : AssemblerStore) : Nat :=
  store.memory.elsewhere + store.pool.capacityBytes

/-- `transport_release_assembler`. -/
def releaseAssembler (store : AssemblerStore) (index : Nat) : AssemblerStore :=
  let pool := store.pool.unindexAssembler index
  let bytes := (pool.slot index).capacityBytes
  { pool := { pool.setSlot index {} with chains := pool.chains.setNext index 0 }
    memory :=
      { store.memory with
        bytes := if bytes ≤ store.memory.bytes then store.memory.bytes - bytes else 0 } }

/-- `transport_grow_assembler`. -/
def growAssembler (store : AssemblerStore) (index symbols symbolSize : Nat)
    (allocates : Bool) : AssemblerStore × Bool :=
  let slot := store.pool.slot index
  let oldBytes := slot.capacityBytes
  let newBytes :=
    requiredBytes (max slot.capacitySymbols symbols) (max slot.capacitySymbolSize symbolSize)
  let usedWithoutOld :=
    if oldBytes ≤ store.memory.bytes then store.memory.bytes - oldBytes else store.memory.bytes
  let additionalBytes := if slot.tooSmall symbols symbolSize then newBytes else 0
  if store.memory.maxBytes < store.memory.bytes ∨
      store.memory.maxBytes - store.memory.bytes < additionalBytes then
    ({ store with
        memory :=
          { store.memory with resourceLimitErrors := store.memory.resourceLimitErrors + 1 } },
      false)
  else
    let store :=
      { store with
        memory :=
          { store.memory with
            peak := max store.memory.peak (store.heldBytes + additionalBytes) } }
    match slot.grow symbols symbolSize allocates with
    | none => (store, false)
    | some grown =>
        ({ pool := store.pool.setSlot index grown
           memory := { store.memory with bytes := usedWithoutOld + grown.capacityBytes } },
          true)

/-- Give the slot to the object of the header, with buffers that can take its symbols. -/
def openSlot (store : AssemblerStore) (index : Nat) (header : FecHeader) (now : Nat)
    (allocates : Bool) : AssemblerStore × Bool :=
  let store := { store with pool := store.pool.unindexAssembler index }
  let prepared :=
    if (store.pool.slot index).tooSmall header.totalSymbols header.symbolSize then
      (store.releaseAssembler index).growAssembler index header.totalSymbols header.symbolSize
        allocates
    else
      (store, true)
  match prepared with
  | (store, false) => (store.releaseAssembler index, false)
  | (store, true) =>
      let started := store.pool.setSlot index ((store.pool.slot index).start header now)
      ({ store with pool := started.indexAssembler index }, true)

/-- Make room for a larger total, which the peer may raise with every symbol. -/
def enlarge (store : AssemblerStore) (index totalSymbols symbolSize : Nat)
    (allocates : Bool) : AssemblerStore × Bool :=
  if (store.pool.slot index).totalSymbols < totalSymbols then
    match store.growAssembler index totalSymbols symbolSize allocates with
    | (store, false) => (store, false)
    | (store, true) =>
        ({ store with
            pool := store.pool.setSlot index
              { store.pool.slot index with totalSymbols := totalSymbols } },
          true)
  else
    (store, true)

def updateSlot (store : AssemblerStore) (index : Nat)
    (update : AssemblerSlot → AssemblerSlot) : AssemblerStore :=
  { store with pool := store.pool.setSlot index (update (store.pool.slot index)) }

def releaseAll (store : AssemblerStore) (indices : List Nat) : AssemblerStore :=
  indices.foldl releaseAssembler store

end AssemblerStore

end Qlinq
