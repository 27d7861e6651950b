import Mathlib.Data.List.Perm.Basic
import Qlinq.EgressTotals
import Qlinq.PathEstimates
import Qlinq.PathRemoval

namespace Qlinq

open Compaction (Vacates closeGap live shiftDown)

/-! The arrays that a transport and its connections index by path slot, and the loops that
take one slot out of all of them. -/

/-- The arrays of `transport_conn_t`; `queuedDatagrams` goes by QUIC path. -/
structure ConnArrays where
  quicReady : Bool := false
  queuedDatagrams : Nat → UInt16 := fun _ => 0
  pathBudgets : Nat → PacedBudget := fun _ => {}
  admissionRetryAtNs : Nat := 0
  pathStates : Nat → PathState := fun _ => ⟨false, 0, 0, 0, 0⟩
  pathMeasurements : Nat → MeasuredPath := fun _ => {}
  minOwdNs : Nat → Int := fun _ => 0
  owdInitialized : Nat → Bool := fun _ => false
  telemetryPath : Nat → Nat := fun _ => 0
  latestOwd : Nat → Fixed := fun _ => 0
  lastTelemetrySNs : Nat → Nat := fun _ => 0
  lastTelemetryRNs : Nat → Nat := fun _ => 0
  pathStateOverridden : Nat → Bool := fun _ => false

namespace ConnArrays

def moveSlot (conn : ConnArrays) (i : Nat) : ConnArrays :=
  { conn with
    pathStates := Function.update conn.pathStates i (conn.pathStates (i + 1))
    pathMeasurements := Function.update conn.pathMeasurements i (conn.pathMeasurements (i + 1))
    pathBudgets := Function.update conn.pathBudgets i (conn.pathBudgets (i + 1))
    minOwdNs := Function.update conn.minOwdNs i (conn.minOwdNs (i + 1))
    owdInitialized := Function.update conn.owdInitialized i (conn.owdInitialized (i + 1))
    telemetryPath := Function.update conn.telemetryPath i (conn.telemetryPath (i + 1))
    latestOwd := Function.update conn.latestOwd i (conn.latestOwd (i + 1))
    lastTelemetrySNs := Function.update conn.lastTelemetrySNs i (conn.lastTelemetrySNs (i + 1))
    lastTelemetryRNs := Function.update conn.lastTelemetryRNs i (conn.lastTelemetryRNs (i + 1))
    pathStateOverridden :=
      Function.update conn.pathStateOverridden i (conn.pathStateOverridden (i + 1)) }

def clearSlot (conn : ConnArrays) (last : Nat) : ConnArrays :=
  { conn with
    pathStates := Function.update conn.pathStates last ⟨false, 0, 0, 0, 0⟩
    pathMeasurements := Function.update conn.pathMeasurements last {}
    pathBudgets := Function.update conn.pathBudgets last {}
    admissionRetryAtNs := 0
    minOwdNs := Function.update conn.minOwdNs last 0
    owdInitialized := Function.update conn.owdInitialized last false
    telemetryPath := Function.update conn.telemetryPath last 0
    latestOwd := Function.update conn.latestOwd last 0
    lastTelemetrySNs := Function.update conn.lastTelemetrySNs last 0
    lastTelemetryRNs := Function.update conn.lastTelemetryRNs last 0
    pathStateOverridden := Function.update conn.pathStateOverridden last false }

/-- `remove_connection_physical_slot`, for one connection. -/
def removePhysicalSlot (numFds removedIndex : Nat) (conn : ConnArrays) : ConnArrays :=
  (closeGap moveSlot removedIndex (numFds - 1) conn).clearSlot (numFds - 1)

/-- What the arrays hold for slot `i`. -/
def record (conn : ConnArrays) (i : Nat) : PathRecord where
  pathState := conn.pathStates i
  pathMeasurement := (conn.pathMeasurements i).toPathMeasurement
  pathBudget := (conn.pathBudgets i).toPathBudget
  budgetAtNs := (conn.pathBudgets i).atNs
  minOwdNs := conn.minOwdNs i
  owdInitialized := conn.owdInitialized i
  telemetryPath := conn.telemetryPath i
  latestOwd := conn.latestOwd i
  lastTelemetrySNs := conn.lastTelemetrySNs i
  lastTelemetryRNs := conn.lastTelemetryRNs i
  pathStateOverridden := conn.pathStateOverridden i

def toPathConn (conn : ConnArrays) : PathConn where
  quicReady := conn.quicReady
  records := conn.record
  admissionRetryAtNs := conn.admissionRetryAtNs

/-- Slot `i` of `n` was taken out of every array of the connection. -/
structure SlotRemoved (n i : Nat) (conn conn' : ConnArrays) : Prop where
  pathStates : Vacates n i ⟨false, 0, 0, 0, 0⟩ conn.pathStates conn'.pathStates
  pathMeasurements : Vacates n i {} conn.pathMeasurements conn'.pathMeasurements
  pathBudgets : Vacates n i {} conn.pathBudgets conn'.pathBudgets
  minOwdNs : Vacates n i 0 conn.minOwdNs conn'.minOwdNs
  owdInitialized : Vacates n i false conn.owdInitialized conn'.owdInitialized
  telemetryPath : Vacates n i 0 conn.telemetryPath conn'.telemetryPath
  latestOwd : Vacates n i 0 conn.latestOwd conn'.latestOwd
  lastTelemetrySNs : Vacates n i 0 conn.lastTelemetrySNs conn'.lastTelemetrySNs
  lastTelemetryRNs : Vacates n i 0 conn.lastTelemetryRNs conn'.lastTelemetryRNs
  pathStateOverridden : Vacates n i false conn.pathStateOverridden conn'.pathStateOverridden
  queuedDatagrams : conn'.queuedDatagrams = conn.queuedDatagrams
  quicReady : conn'.quicReady = conn.quicReady

theorem vacates_removePhysicalSlot {α : Type} {zero : α} (get : ConnArrays → Nat → α)
    (hmove : ∀ conn j, get (moveSlot conn j) = Function.update (get conn) j (get conn (j + 1)))
    (hclear : ∀ conn j, get (clearSlot conn j) = Function.update (get conn) j zero)
    (hi : i < n) (conn : ConnArrays) :
    Vacates n i zero (get conn) (get (removePhysicalSlot n i conn)) :=
  Compaction.vacates_closeGap get hmove hclear hi conn

theorem same_removePhysicalSlot {α : Type} (get : ConnArrays → α)
    (hmove : ∀ conn j, get (moveSlot conn j) = get conn)
    (hclear : ∀ conn j, get (clearSlot conn j) = get conn) (n i : Nat) (conn : ConnArrays) :
    get (removePhysicalSlot n i conn) = get conn := by
  rw [removePhysicalSlot, hclear, Compaction.same_closeGap get hmove]

theorem removePhysicalSlot_removed (conn : ConnArrays) (hi : i < n) :
    SlotRemoved n i conn (removePhysicalSlot n i conn) where
  pathStates := vacates_removePhysicalSlot pathStates (fun _ _ => rfl) (fun _ _ => rfl) hi conn
  pathMeasurements :=
    vacates_removePhysicalSlot pathMeasurements (fun _ _ => rfl) (fun _ _ => rfl) hi conn
  pathBudgets := vacates_removePhysicalSlot pathBudgets (fun _ _ => rfl) (fun _ _ => rfl) hi conn
  minOwdNs := vacates_removePhysicalSlot minOwdNs (fun _ _ => rfl) (fun _ _ => rfl) hi conn
  owdInitialized :=
    vacates_removePhysicalSlot owdInitialized (fun _ _ => rfl) (fun _ _ => rfl) hi conn
  telemetryPath :=
    vacates_removePhysicalSlot telemetryPath (fun _ _ => rfl) (fun _ _ => rfl) hi conn
  latestOwd := vacates_removePhysicalSlot latestOwd (fun _ _ => rfl) (fun _ _ => rfl) hi conn
  lastTelemetrySNs :=
    vacates_removePhysicalSlot lastTelemetrySNs (fun _ _ => rfl) (fun _ _ => rfl) hi conn
  lastTelemetryRNs :=
    vacates_removePhysicalSlot lastTelemetryRNs (fun _ _ => rfl) (fun _ _ => rfl) hi conn
  pathStateOverridden :=
    vacates_removePhysicalSlot pathStateOverridden (fun _ _ => rfl) (fun _ _ => rfl) hi conn
  queuedDatagrams :=
    same_removePhysicalSlot queuedDatagrams (fun _ _ => rfl) (fun _ _ => rfl) n i conn
  quicReady := same_removePhysicalSlot quicReady (fun _ _ => rfl) (fun _ _ => rfl) n i conn

theorem record_moveSlot (conn : ConnArrays) (i : Nat) :
    (conn.moveSlot i).record = Function.update conn.record i (conn.record (i + 1)) := by
  funext k
  by_cases hk : k = i
  · subst hk
    simp [record, moveSlot]
  · simp [record, moveSlot, hk]

theorem record_clearSlot (conn : ConnArrays) (last : Nat) :
    (conn.clearSlot last).record = Function.update conn.record last {} := by
  funext k
  by_cases hk : k = last
  · subst hk
    simp [record, clearSlot]
  · simp [record, clearSlot, hk]

theorem toPathConn_removePhysicalSlot (n i : Nat) (conn : ConnArrays) :
    (removePhysicalSlot n i conn).toPathConn =
      Paths.removeConnectionPhysicalSlot n i conn.toPathConn := by
  have hready : (removePhysicalSlot n i conn).quicReady = conn.quicReady :=
    same_removePhysicalSlot quicReady (fun _ _ => rfl) (fun _ _ => rfl) n i conn
  have hrecord : (removePhysicalSlot n i conn).record =
      Function.update (shiftDown i (n - 1) conn.record) (n - 1) {} := by
    rw [removePhysicalSlot, record_clearSlot,
      Compaction.get_closeGap record fun conn i => record_moveSlot conn i]
  rw [toPathConn, hready, hrecord]
  rfl

end ConnArrays

/-! The arrays of the transport. -/

namespace UdpEgress

/-- What `memset` leaves of a queue. -/
def cleared : UdpEgress where
  ring := .empty 0
  maxBytes := 0

/-- The packets that wait, with the caps of the queue. -/
def queue (egress : UdpEgress) : TransportEgress where
  capacity := egress.ring.capacity
  maxBytes := egress.maxBytes
  packets := (List.range egress.ring.count).filterMap fun offset =>
    (egress.ring.peek offset).map UdpPacket.data

end UdpEgress

/-- The arrays of `transport_t`. -/
structure SlotArrays where
  fds : Nat → Int
  localAddrs : Nat → Option SockAddr
  localAddrsLen : Nat → Nat
  localIfindices : Nat → UInt32
  localIfnames : Nat → List UInt8
  udpBytesReceived : Nat → Nat
  egress : Nat → UdpEgress
  localRemoteIndices : Nat → Option Nat
  pathOpenPending : Nat → Bool
  pathOpenRetryAt : Nat → Nat

namespace SlotArrays

def moveSlot (slots : SlotArrays) (i : Nat) : SlotArrays where
  fds := Function.update slots.fds i (slots.fds (i + 1))
  localAddrs := Function.update slots.localAddrs i (slots.localAddrs (i + 1))
  localAddrsLen := Function.update slots.localAddrsLen i (slots.localAddrsLen (i + 1))
  localIfindices := Function.update slots.localIfindices i (slots.localIfindices (i + 1))
  localIfnames := Function.update slots.localIfnames i (slots.localIfnames (i + 1))
  udpBytesReceived := Function.update slots.udpBytesReceived i (slots.udpBytesReceived (i + 1))
  egress := Function.update slots.egress i (slots.egress (i + 1))
  localRemoteIndices :=
    Function.update slots.localRemoteIndices i (slots.localRemoteIndices (i + 1))
  pathOpenPending := Function.update slots.pathOpenPending i (slots.pathOpenPending (i + 1))
  pathOpenRetryAt := Function.update slots.pathOpenRetryAt i (slots.pathOpenRetryAt (i + 1))

/-- The descriptor, the address and the interface index stay in the place that falls free. -/
def freeSlot (slots : SlotArrays) (last : Nat) : SlotArrays :=
  { slots with
    localIfnames := Function.update slots.localIfnames last []
    udpBytesReceived := Function.update slots.udpBytesReceived last 0
    egress := Function.update slots.egress last .cleared
    localRemoteIndices := Function.update slots.localRemoteIndices last none
    pathOpenPending := Function.update slots.pathOpenPending last false
    pathOpenRetryAt := Function.update slots.pathOpenRetryAt last 0 }

/-- `transport_egress_destroy` of the queue of slot `i`. -/
def destroyEgress (slots : SlotArrays) (i : Nat) : SlotArrays :=
  { slots with egress := Function.update slots.egress i .cleared }

def removeSlot (numFds i : Nat) (slots : SlotArrays) : SlotArrays :=
  (closeGap moveSlot i (numFds - 1) (slots.destroyEgress i)).freeSlot (numFds - 1)

/-- Whether a removal message names the slot. -/
def removalMatches (slots : SlotArrays) (message : IfmonMessage) (i : Nat) : Bool :=
  match message.addr with
  | none => slots.localIfindices i == message.index || (slots.localAddrs i).isNone
  | some addr => (slots.localAddrs i).any (SockAddr.sameHost addr)

def slot (slots : SlotArrays) (i : Nat) : PathSlot where
  fd := slots.fds i
  localAddr := slots.localAddrs i
  localIfindex := slots.localIfindices i
  localIfname := slots.localIfnames i
  udpBytesReceived := slots.udpBytesReceived i
  egress := (slots.egress i).queue
  localRemoteIndex := slots.localRemoteIndices i
  pathOpenPending := slots.pathOpenPending i
  pathOpenRetryAt := slots.pathOpenRetryAt i

/-- Slot `i` of `n` was taken out of every array of the transport. -/
structure SlotRemoved (n i : Nat) (slots slots' : SlotArrays) : Prop where
  fds : live (n - 1) slots'.fds = (live n slots.fds).eraseIdx i
  localAddrs : live (n - 1) slots'.localAddrs = (live n slots.localAddrs).eraseIdx i
  localAddrsLen : live (n - 1) slots'.localAddrsLen = (live n slots.localAddrsLen).eraseIdx i
  localIfindices : live (n - 1) slots'.localIfindices = (live n slots.localIfindices).eraseIdx i
  localIfnames : Vacates n i [] slots.localIfnames slots'.localIfnames
  udpBytesReceived : Vacates n i 0 slots.udpBytesReceived slots'.udpBytesReceived
  egress : Vacates n i .cleared slots.egress slots'.egress
  localRemoteIndices : Vacates n i none slots.localRemoteIndices slots'.localRemoteIndices
  pathOpenPending : Vacates n i false slots.pathOpenPending slots'.pathOpenPending
  pathOpenRetryAt : Vacates n i 0 slots.pathOpenRetryAt slots'.pathOpenRetryAt

theorem live_removeSlot {α : Type} (get : SlotArrays → Nat → α)
    (hmove : ∀ slots j,
      get (moveSlot slots j) = Function.update (get slots) j (get slots (j + 1)))
    (hfree : ∀ slots j, get (freeSlot slots j) = get slots)
    (hdestroy : ∀ slots j, get (destroyEgress slots j) = get slots)
    (hi : i < n) (slots : SlotArrays) :
    live (n - 1) (get (removeSlot n i slots)) = (live n (get slots)).eraseIdx i := by
  rw [← hdestroy slots i]
  exact Compaction.live_closeGap get hmove hfree hi (slots.destroyEgress i)

theorem vacates_removeSlot {α : Type} {zero : α} (get : SlotArrays → Nat → α)
    (hmove : ∀ slots j,
      get (moveSlot slots j) = Function.update (get slots) j (get slots (j + 1)))
    (hfree : ∀ slots j, get (freeSlot slots j) = Function.update (get slots) j zero)
    (hdestroy : ∀ slots j, get (destroyEgress slots j) = get slots)
    (hi : i < n) (slots : SlotArrays) :
    Vacates n i zero (get slots) (get (removeSlot n i slots)) := by
  rw [← hdestroy slots i]
  exact Compaction.vacates_closeGap get hmove hfree hi (slots.destroyEgress i)

theorem egress_removeSlot (slots : SlotArrays) (hi : i < n) :
    Vacates n i .cleared slots.egress (removeSlot n i slots).egress := by
  have hloop : Vacates n i .cleared (slots.destroyEgress i).egress
      (removeSlot n i slots).egress :=
    Compaction.vacates_closeGap egress (fun _ _ => rfl) (fun _ _ => rfl) hi (slots.destroyEgress i)
  refine ⟨?_, hloop.freed⟩
  rw [hloop.live_eq, destroyEgress, Compaction.live_update, List.eraseIdx_set_eq]

theorem removeSlot_removed (slots : SlotArrays) (hi : i < n) :
    SlotRemoved n i slots (removeSlot n i slots) where
  fds := live_removeSlot fds (fun _ _ => rfl) (fun _ _ => rfl) (fun _ _ => rfl) hi slots
  localAddrs :=
    live_removeSlot localAddrs (fun _ _ => rfl) (fun _ _ => rfl) (fun _ _ => rfl) hi slots
  localAddrsLen :=
    live_removeSlot localAddrsLen (fun _ _ => rfl) (fun _ _ => rfl) (fun _ _ => rfl) hi slots
  localIfindices :=
    live_removeSlot localIfindices (fun _ _ => rfl) (fun _ _ => rfl) (fun _ _ => rfl) hi slots
  localIfnames :=
    vacates_removeSlot localIfnames (fun _ _ => rfl) (fun _ _ => rfl) (fun _ _ => rfl) hi slots
  udpBytesReceived :=
    vacates_removeSlot udpBytesReceived (fun _ _ => rfl) (fun _ _ => rfl) (fun _ _ => rfl) hi slots
  egress := egress_removeSlot slots hi
  localRemoteIndices :=
    vacates_removeSlot localRemoteIndices (fun _ _ => rfl) (fun _ _ => rfl) (fun _ _ => rfl) hi
      slots
  pathOpenPending :=
    vacates_removeSlot pathOpenPending (fun _ _ => rfl) (fun _ _ => rfl) (fun _ _ => rfl) hi slots
  pathOpenRetryAt :=
    vacates_removeSlot pathOpenRetryAt (fun _ _ => rfl) (fun _ _ => rfl) (fun _ _ => rfl) hi slots

theorem slot_moveSlot (slots : SlotArrays) (i : Nat) :
    (slots.moveSlot i).slot = Function.update slots.slot i (slots.slot (i + 1)) := by
  funext k
  by_cases hk : k = i
  · subst hk
    simp [slot, moveSlot]
  · simp [slot, moveSlot, hk]

theorem slot_freeSlot (slots : SlotArrays) (last : Nat) :
    (slots.freeSlot last).slot =
      Function.update slots.slot last (Paths.freedSlot (slots.slot last)) := by
  funext k
  by_cases hk : k = last
  · subst hk
    simp [slot, freeSlot, Paths.freedSlot, UdpEgress.queue, UdpEgress.cleared,
      RingBuffer.capacity, RingBuffer.empty]
  · simp [slot, freeSlot, hk]

theorem slot_destroyEgress (slots : SlotArrays) (hk : k ≠ i) :
    (slots.destroyEgress i).slot k = slots.slot k := by
  simp [slot, destroyEgress, hk]

/-- The queue that was destroyed is not read again: the loop writes over it, or the place
of slot `i` is the one that falls free. -/
theorem slot_removeSlot (slots : SlotArrays) (hi : i < n) :
    (removeSlot n i slots).slot =
      Function.update (shiftDown i (n - 1) slots.slot) (n - 1)
        (Paths.freedSlot (shiftDown i (n - 1) slots.slot (n - 1))) := by
  rw [removeSlot, slot_freeSlot, Compaction.get_closeGap slot slot_moveSlot]
  funext k
  by_cases hlast : k = n - 1
  · subst hlast
    rw [Function.update_self, Function.update_self, Compaction.shiftDown_apply,
      Compaction.shiftDown_apply, if_neg (by omega), if_neg (by omega)]
    rfl
  · rw [Function.update_of_ne hlast, Function.update_of_ne hlast, Compaction.shiftDown_apply,
      Compaction.shiftDown_apply]
    split
    · exact slot_destroyEgress slots (by omega)
    · exact slot_destroyEgress slots (by omega)

end SlotArrays

namespace UdpStats

/-- The packets that wait in a queue count as dropped, and no longer as queued now. -/
def dropQueued (stats : UdpStats) (egress : UdpEgress) : UdpStats :=
  { stats with
    egressPacketsDropped := stats.egressPacketsDropped + egress.ring.count
    egressCurrentPackets := stats.egressCurrentPackets - egress.ring.count
    egressCurrentBytes := stats.egressCurrentBytes - egress.bytes }

theorem dropQueued_addOpen (stats : UdpStats) (egress : UdpEgress) :
    (stats.addOpen egress).dropQueued egress = stats.accumulateEgressStats egress true := by
  simp [dropQueued, addOpen, accumulateEgressStats, Nat.add_assoc]

theorem addOpen_right_comm (stats : UdpStats) (first second : UdpEgress) :
    (stats.addOpen first).addOpen second = (stats.addOpen second).addOpen first := by
  simp [addOpen, accumulateEgressStats, Nat.add_right_comm, Nat.max_comm, Nat.max_left_comm]

theorem addOpen_accumulate (stats : UdpStats) (gone egress : UdpEgress) :
    (stats.accumulateEgressStats gone true).addOpen egress =
      (stats.addOpen egress).accumulateEgressStats gone true := by
  simp [addOpen, accumulateEgressStats, Nat.add_right_comm, Nat.max_comm, Nat.max_left_comm]

theorem foldl_addOpen_accumulate (gone : UdpEgress) (opened : List UdpEgress)
    (stats : UdpStats) :
    opened.foldl addOpen (stats.accumulateEgressStats gone true) =
      (opened.foldl addOpen stats).accumulateEgressStats gone true := by
  induction opened generalizing stats with
  | nil => rfl
  | cons egress rest ih =>
      rw [List.foldl_cons, List.foldl_cons, addOpen_accumulate, ih]

/-- It does not matter which socket is counted last. -/
theorem foldl_addOpen_eraseIdx {opened : List UdpEgress} (hi : i < opened.length)
    (stats : UdpStats) :
    opened.foldl addOpen stats = ((opened.eraseIdx i).foldl addOpen stats).addOpen opened[i] := by
  have hperm : opened.Perm (opened.eraseIdx i ++ [opened[i]]) :=
    (List.getElem_cons_eraseIdx_perm hi).symm.trans
      (List.perm_append_singleton opened[i] _).symm
  have hsame : opened.foldl addOpen stats =
      (opened.eraseIdx i ++ [opened[i]]).foldl addOpen stats :=
    hperm.foldl_eq' (fun first _ second _ stats => addOpen_right_comm stats first second) stats
  rw [hsame, List.foldl_append, List.foldl_cons, List.foldl_nil]

end UdpStats

/-- The part of `transport_t` that goes by path slot. -/
structure PathTransport where
  isServer : Bool
  remoteAddrs : List SockAddr
  pathInterfaceNames : List (List UInt8)
  maxEgressPackets : Nat
  maxEgressBytes : Nat
  slots : SlotArrays
  numFds : Nat
  /-- The server's connections, or the client's one. -/
  conns : List ConnArrays
  /-- The counters of the sockets that were closed. -/
  stats : UdpStats
  capped : numFds ≤ transportMaxPaths
  bound : ∀ i < numFds, (slots.localAddrs i).isSome

namespace PathTransport

def egresses (t : PathTransport) : List UdpEgress := live t.numFds t.slots.egress

def getStats (t : PathTransport) : UdpStats := t.egresses.foldl UdpStats.addOpen t.stats

/-- `transport_tick`: the slot's socket is closed, and the slot taken out. -/
def removeSlot (t : PathTransport) (i : Nat) (hi : i < t.numFds) : PathTransport :=
  { t with
    stats := t.stats.accumulateEgressStats (t.slots.egress i) true
    slots := SlotArrays.removeSlot t.numFds i t.slots
    conns := t.conns.map (ConnArrays.removePhysicalSlot t.numFds i)
    numFds := t.numFds - 1
    capped := by have := t.capped; omega
    bound := by
      intro k hk
      have hmem : (SlotArrays.removeSlot t.numFds i t.slots).localAddrs k ∈
          (live t.numFds t.slots.localAddrs).eraseIdx i := by
        rw [← (SlotArrays.removeSlot_removed t.slots hi).localAddrs]
        exact Compaction.mem_live.mpr ⟨k, hk, rfl⟩
      obtain ⟨j, hj, hsame⟩ := Compaction.mem_live.mp (List.mem_of_mem_eraseIdx hmem)
      rw [← hsame]
      exact t.bound j hj }

/-- The search stops at the first slot that matches. -/
def addressRemoved (t : PathTransport) (message : IfmonMessage) : PathTransport :=
  match hfind : (List.range t.numFds).find? (t.slots.removalMatches message) with
  | none => t
  | some i => t.removeSlot i (List.mem_range.mp (List.mem_of_find?_eq_some hfind))

def toPaths (t : PathTransport) : Paths where
  isServer := t.isServer
  remoteAddrs := t.remoteAddrs
  pathInterfaceNames := t.pathInterfaceNames
  maxEgressPackets := t.maxEgressPackets
  maxEgressBytes := t.maxEgressBytes
  slots := t.slots.slot
  numFds := t.numFds
  conns := t.conns.map ConnArrays.toPathConn
  capped := t.capped
  bound := t.bound

theorem toPaths_removeSlot (t : PathTransport) (hi : i < t.numFds) :
    (t.removeSlot i hi).toPaths = t.toPaths.closeSlot i := by
  have hconns : (t.conns.map (ConnArrays.removePhysicalSlot t.numFds i)).map
      ConnArrays.toPathConn =
        (t.conns.map ConnArrays.toPathConn).map
          (Paths.removeConnectionPhysicalSlot t.numFds i) := by
    rw [List.map_map, List.map_map]
    apply List.map_congr_left
    intro conn _
    exact ConnArrays.toPathConn_removePhysicalSlot t.numFds i conn
  simp only [toPaths, removeSlot, Paths.closeSlot, SlotArrays.slot_removeSlot t.slots hi, hconns]

/-- A removal message does to the arrays what it does to the list of slots. -/
theorem toPaths_addressRemoved (t : PathTransport) (message : IfmonMessage) :
    (t.addressRemoved message).toPaths = t.toPaths.addressRemoved message := by
  have hsearch : t.toPaths.localSlots.findIdx? (Paths.removalMatches message) =
      (List.range t.numFds).find? (t.slots.removalMatches message) :=
    Compaction.findIdx?_live _ _ _
  rw [Paths.addressRemoved, hsearch]
  unfold addressRemoved
  split
  · next hnone => simp only [hnone]
  · next i hfind =>
    simp only [hfind]
    exact toPaths_removeSlot t _

theorem getStats_removeSlot (t : PathTransport) (hi : i < t.numFds) :
    (t.removeSlot i hi).getStats = t.getStats.dropQueued (t.slots.egress i) := by
  have hleft : (t.removeSlot i hi).egresses = t.egresses.eraseIdx i :=
    (SlotArrays.egress_removeSlot t.slots hi).live_eq
  have hlength : i < t.egresses.length := by
    rwa [egresses, Compaction.length_live]
  have hgone : t.egresses[i] = t.slots.egress i := by
    apply Option.some_inj.mp
    rw [← List.getElem?_eq_getElem hlength, egresses, Compaction.getElem?_live, if_pos hi]
  calc (t.removeSlot i hi).getStats
      = (t.egresses.eraseIdx i).foldl UdpStats.addOpen
          (t.stats.accumulateEgressStats (t.slots.egress i) true) := by
        rw [getStats, hleft]
        rfl
    _ = ((t.egresses.eraseIdx i).foldl UdpStats.addOpen t.stats).accumulateEgressStats
          (t.slots.egress i) true := UdpStats.foldl_addOpen_accumulate _ _ _
    _ = (((t.egresses.eraseIdx i).foldl UdpStats.addOpen t.stats).addOpen
          (t.slots.egress i)).dropQueued (t.slots.egress i) :=
        (UdpStats.dropQueued_addOpen _ _).symm
    _ = t.getStats.dropQueued (t.slots.egress i) := by
        rw [getStats, UdpStats.foldl_addOpen_eraseIdx hlength, hgone]

/-- Slot `i` was taken out of every array, its socket's packets count as dropped, and a slot
that is added next finds nothing in the place it takes. -/
structure SlotRemoved (i : Nat) (t t' : PathTransport) : Prop where
  numFds : t'.numFds = t.numFds - 1
  slots : SlotArrays.SlotRemoved t.numFds i t.slots t'.slots
  conns : List.Forall₂ (ConnArrays.SlotRemoved t.numFds i) t.conns t'.conns
  getStats : t'.getStats = t.getStats.dropQueued (t.slots.egress i)
  fresh : ∀ message opened, ∀ conn ∈ (t'.toPaths.addressAdded message opened).conns,
    conn.records t'.numFds = {}

end PathTransport

namespace Paths

theorem conns_addressAdded (t : Paths) (message : IfmonMessage) (opened : Option Int) :
    (t.addressAdded message opened).conns = t.conns := by
  unfold addressAdded
  split
  · split
    · dsimp only
      split
      · rfl
      · split
        · rfl
        · rfl
    · rfl
  · rfl

theorem records_closeSlot (t : Paths) (i : Nat) (hconn : conn ∈ (t.closeSlot i).conns) :
    conn.records (t.closeSlot i).numFds = {} := by
  obtain ⟨old, -, rfl⟩ := List.mem_map.mp hconn
  exact Function.update_self ..

end Paths

namespace PathTransport

theorem slot_removed (t : PathTransport) (i : Nat) (hi : i < t.numFds) :
    SlotRemoved i t (t.removeSlot i hi) where
  numFds := rfl
  slots := SlotArrays.removeSlot_removed t.slots hi
  conns := by
    apply List.forall₂_map_right_iff.mpr
    apply List.forall₂_same.mpr
    intro conn _
    exact ConnArrays.removePhysicalSlot_removed conn hi
  getStats := getStats_removeSlot t hi
  fresh := by
    intro message opened conn hconn
    rw [Paths.conns_addressAdded, toPaths_removeSlot] at hconn
    exact Paths.records_closeSlot t.toPaths i hconn

/-! A server with a connection and two sockets. A packet waits at the first; the second
path is the one whose delay is known. -/

def twoSockets : PathTransport where
  isServer := true
  remoteAddrs := []
  pathInterfaceNames := []
  maxEgressPackets := 4
  maxEgressBytes := 4096
  slots :=
    { fds := fun i => 3 + i
      localAddrs := fun i => some (.inet (0x0A000001 + BitVec.ofNat 32 i) 4433)
      localAddrsLen := fun _ => 16
      localIfindices := fun i => UInt32.ofNat (1 + i)
      localIfnames := fun _ => []
      udpBytesReceived := fun i => 100 * i
      egress := fun i =>
        let opened : UdpEgress := { ring := .empty 4, maxBytes := 4096, packetsSent := 5 + i }
        if i = 0 then opened.append ⟨[], [1, 2, 3]⟩ else opened
      localRemoteIndices := fun _ => none
      pathOpenPending := fun _ => false
      pathOpenRetryAt := fun _ => 0 }
  numFds := 2
  conns :=
    [{ owdInitialized := fun i => i = 1
       minOwdNs := fun i => if i = 1 then -7 else 0 }]
  stats := { udpPacketsSent := 10 }
  capped := by decide
  bound := fun _ _ => rfl

theorem twoSockets_slot_removed :
    SlotRemoved 0 twoSockets (twoSockets.removeSlot 0 (by decide)) ∧
      (twoSockets.removeSlot 0 (by decide)).getStats.egressPacketsDropped = 1 ∧
      (twoSockets.removeSlot 0 (by decide)).conns.map (fun conn => conn.minOwdNs 0) = [-7] :=
  ⟨slot_removed twoSockets 0 (by decide), by decide +kernel, by decide +kernel⟩

end PathTransport

end Qlinq
