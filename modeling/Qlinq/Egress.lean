import Qlinq.Lib.Machine
import Qlinq.Lib.RingBuffer
import Qlinq.Lib.Totals
import Qlinq.UdpBatch

namespace Qlinq

/-! The queue of a UDP socket: what the kernel does not take at once waits in a
ring, and each flush sends from its head. -/

def transportEgressBatch : Nat := 64

def sockaddrStorageSize : Nat := 128

/-- `packets`, `capacity`, `head` and `count` of the source are the ring. -/
structure UdpEgress where
  ring : RingBuffer UdpPacket
  maxBytes : Nat
  bytes : Nat := 0
  peakCount : Nat := 0
  peakBytes : Nat := 0
  packetsSent : Nat := 0
  bytesSent : Nat := 0
  wouldBlock : Nat := 0
  sendErrors : Nat := 0
  packetsQueued : Nat := 0
  bytesQueued : Nat := 0
  packetsDropped : Nat := 0
  deriving DecidableEq, Repr

/-- The errors after which the same datagrams are worth another try. -/
def Errno.retries (errno : Errno) : Bool :=
  errno = .eagain || errno = .ewouldblock || errno = .eintr

/-- The bytes of the datagrams, where their sum does not pass `SIZE_MAX`. -/
def sumLengths : List Bytes → Nat → Option Nat
  | [], bytes => some bytes
  | datagram :: rest, bytes =>
      if sizeMax - bytes < datagram.length then none else sumLengths rest (bytes + datagram.length)

namespace UdpEgress

/-- `transport_egress_init`, where its `calloc` succeeds. -/
def init (maxPackets maxBytes : Nat) : Option UdpEgress :=
  if maxPackets = 0 ∨ maxBytes = 0 then
    none
  else
    some { ring := .empty maxPackets, maxBytes }

def canAccept (egress : UdpEgress) (packets bytes : Nat) : Bool :=
  packets ≤ egress.ring.capacity - egress.ring.count && bytes ≤ egress.maxBytes - egress.bytes

def append (egress : UdpEgress) (packet : UdpPacket) : UdpEgress :=
  { egress with
    ring := egress.ring.pushBack packet
    bytes := egress.bytes + packet.data.length }

def packetSize (egress : UdpEgress) (offset : Nat) : Nat :=
  (egress.ring.peek offset).elim 0 fun packet => packet.data.length

def removeLast (egress : UdpEgress) : UdpEgress :=
  { egress with
    bytes := egress.bytes - egress.packetSize (egress.ring.count - 1)
    ring := egress.ring.popBack }

def removeHead (egress : UdpEgress) : UdpEgress :=
  { egress with
    bytes := egress.bytes - egress.packetSize 0
    ring := egress.ring.popFront }

/-- Take back the copies queued so far. -/
def rollBack : Nat → UdpEgress → UdpEgress
  | 0, egress => egress
  | queued + 1, egress => rollBack queued egress.removeLast

/-- The loop of copies; `mallocs i` tells whether the `i`-th allocation succeeds. -/
def queueCopies (destination : Bytes) (mallocs : Nat → Bool) :
    Nat → List Bytes → UdpEgress → Bool × UdpEgress
  | _, [], egress => (true, egress)
  | queued, datagram :: rest, egress =>
      if mallocs queued then
        queueCopies destination mallocs (queued + 1) rest (egress.append ⟨destination, datagram⟩)
      else
        (false, rollBack queued egress)

def queueRemaining (egress : UdpEgress) (destination : Bytes) (mallocs : Nat → Bool)
    (datagrams : List Bytes) : Bool × UdpEgress :=
  match sumLengths datagrams 0 with
  | none => (false, egress)
  | some bytes =>
      if egress.canAccept datagrams.length bytes then
        match queueCopies destination mallocs 0 datagrams egress with
        | (false, egress) =>
            (false, { egress with packetsDropped := egress.packetsDropped + datagrams.length })
        | (true, egress) =>
            (true,
              { egress with
                packetsQueued := egress.packetsQueued + datagrams.length
                bytesQueued := egress.bytesQueued + bytes
                peakCount := max egress.peakCount egress.ring.count
                peakBytes := max egress.peakBytes egress.bytes })
      else
        (false, { egress with packetsDropped := egress.packetsDropped + datagrams.length })

def blocked (egress : UdpEgress) : UdpEgress := { egress with wouldBlock := egress.wouldBlock + 1 }

def countSent (egress : UdpEgress) (sent : List Bytes) : UdpEgress :=
  { egress with
    packetsSent := egress.packetsSent + sent.length
    bytesSent := egress.bytesSent + Totals.total List.length sent }

def submit (egress : UdpEgress) (socket : UdpSocket) (destination : Bytes) (datagrams : List Bytes)
    (mallocs : Nat → Bool) : Bool × UdpEgress × UdpSocket :=
  if sockaddrStorageSize < destination.length then
    (false, egress, socket)
  else if datagrams = [] then
    (true, egress, socket)
  else if egress.ring.count = 0 then
    match socket.sendBatch destination datagrams with
    | (none, socket) =>
        let egress := { egress with sendErrors := egress.sendErrors + 1 }
        if socket.errno.retries then
          let (queued, egress) := egress.blocked.queueRemaining destination mallocs datagrams
          (queued, egress, socket)
        else
          (false, egress, socket)
    | (some first, socket) =>
        let egress := egress.countSent (datagrams.take first)
        if first < datagrams.length then
          let (queued, egress) :=
            egress.blocked.queueRemaining destination mallocs (datagrams.drop first)
          (queued, egress, socket)
        else
          (true, egress, socket)
  else
    let (queued, egress) := egress.queueRemaining destination mallocs datagrams
    (queued, egress, socket)

/-! Flushing. -/

/-- The datagrams from the head on that go to one destination. -/
def compatible (egress : UdpEgress) (destination : Bytes) : Nat → Nat → List Bytes
  | 0, _ => []
  | left + 1, offset =>
      match egress.ring.peek offset with
      | some packet =>
          if packet.destination = destination then
            packet.data :: compatible egress destination left (offset + 1)
          else
            []
      | none => []

def dropHead (egress : UdpEgress) : UdpEgress :=
  { egress.removeHead with
    sendErrors := egress.sendErrors + 1
    packetsDropped := egress.packetsDropped + 1 }

def releaseSent : Nat → UdpEgress → UdpEgress
  | 0, egress => egress
  | sent + 1, egress =>
      releaseSent sent
        { egress.removeHead with
          packetsSent := egress.packetsSent + 1
          bytesSent := egress.bytesSent + egress.packetSize 0 }

/-- The loop of `transport_egress_flush`. Every turn that goes on uses some of the
budget, so `budget` turns are enough. -/
def flushLoop : Nat → Nat → Bool → UdpEgress → UdpSocket → Bool × UdpEgress × UdpSocket
  | 0, _, success, egress, socket => (success, egress, socket)
  | turns + 1, budget, success, egress, socket =>
      if egress.ring.count = 0 ∨ budget = 0 then
        (success, egress, socket)
      else
        match egress.ring.peek 0 with
        | none => (success, egress, socket)
        | some first =>
            let datagrams := egress.compatible first.destination (min egress.ring.count budget) 0
            match socket.sendBatch first.destination datagrams with
            | (none, socket) =>
                if socket.errno.retries then
                  (success, egress.blocked, socket)
                else
                  flushLoop turns (budget - 1) false egress.dropHead socket
            | (some 0, socket) => (success, egress.blocked, socket)
            | (some (sent + 1), socket) =>
                let egress := egress.releaseSent (sent + 1)
                if sent + 1 < datagrams.length then
                  (success, egress.blocked, socket)
                else
                  flushLoop turns (budget - (sent + 1)) success egress socket

def flush (egress : UdpEgress) (socket : UdpSocket) : Bool × UdpEgress × UdpSocket :=
  flushLoop transportEgressBatch transportEgressBatch true egress socket

/-! ### What the ring holds -/

def packetBytes (packets : List UdpPacket) : Nat :=
  Totals.total (fun packet => packet.data.length) packets

/-- The queue is `items`, and its byte count is theirs. -/
structure Queues (egress : UdpEgress) (items : List UdpPacket) : Prop where
  holds : egress.ring.Holds items
  bytes_eq : egress.bytes = packetBytes items
  bytes_le : egress.bytes ≤ egress.maxBytes

/-- One queue after another with the same caps and the same counts of packets that
left it. -/
structure Alike (egress egress' : UdpEgress) : Prop where
  capacity_eq : egress'.ring.capacity = egress.ring.capacity
  maxBytes_eq : egress'.maxBytes = egress.maxBytes
  sent_eq : egress'.packetsSent = egress.packetsSent
  dropped_eq : egress'.packetsDropped = egress.packetsDropped

theorem Alike.refl (egress : UdpEgress) : egress.Alike egress :=
  ⟨rfl, rfl, rfl, rfl⟩

theorem Alike.trans {a b c : UdpEgress} (hab : a.Alike b) (hbc : b.Alike c) : a.Alike c where
  capacity_eq := hbc.capacity_eq.trans hab.capacity_eq
  maxBytes_eq := hbc.maxBytes_eq.trans hab.maxBytes_eq
  sent_eq := hbc.sent_eq.trans hab.sent_eq
  dropped_eq := hbc.dropped_eq.trans hab.dropped_eq

theorem packetBytes_append (first second : List UdpPacket) :
    packetBytes (first ++ second) = packetBytes first + packetBytes second := by
  simp [packetBytes, Totals.total]

theorem packetBytes_singleton (packet : UdpPacket) :
    packetBytes [packet] = packet.data.length := by
  simp [packetBytes]

theorem packetBytes_cons (packet : UdpPacket) (rest : List UdpPacket) :
    packetBytes (packet :: rest) = packet.data.length + packetBytes rest :=
  Totals.total_cons packet rest

theorem queues_init {maxPackets maxBytes : Nat} (hinit : init maxPackets maxBytes = some egress) :
    egress.Queues [] ∧ egress.ring.capacity = maxPackets ∧ egress.maxBytes = maxBytes := by
  unfold init at hinit
  split at hinit
  · cases hinit
  · next hpos =>
    cases hinit
    exact ⟨⟨.empty (by omega), rfl, Nat.zero_le _⟩, List.length_replicate, rfl⟩

theorem packetSize_eq {items : List UdpPacket} (hqueues : Queues egress items)
    (hitem : items[offset]? = some packet) : egress.packetSize offset = packet.data.length := by
  have hoffset := (List.getElem?_eq_some_iff.mp hitem).1
  rw [packetSize, hqueues.holds.peek_eq (by rw [hqueues.holds.count_eq]; exact hoffset), hitem]
  rfl

theorem Queues.append {items : List UdpPacket} {packet : UdpPacket}
    (hqueues : Queues egress items)
    (hroom : items.length < egress.ring.capacity)
    (hbytes : egress.bytes + packet.data.length ≤ egress.maxBytes) :
    (egress.append packet).Queues (items ++ [packet]) where
  holds := hqueues.holds.pushBack hroom packet
  bytes_eq := by
    rw [packetBytes_append, packetBytes_singleton, ← hqueues.bytes_eq]
    rfl
  bytes_le := hbytes

theorem alike_append (egress : UdpEgress) (packet : UdpPacket) : egress.Alike (egress.append packet) :=
  ⟨RingBuffer.capacity_pushBack _ _, rfl, rfl, rfl⟩

theorem Queues.removeLast {items : List UdpPacket} (hqueues : Queues egress (items ++ [packet])) :
    egress.removeLast.Queues items := by
  have hcount := hqueues.holds.count_eq
  rw [List.length_append, List.length_singleton] at hcount
  have hlast : egress.packetSize (egress.ring.count - 1) = packet.data.length := by
    refine packetSize_eq hqueues ?_
    rw [hcount, Nat.add_sub_cancel, List.getElem?_concat_length]
  have hbytes := hqueues.bytes_eq
  rw [packetBytes_append, packetBytes_singleton, ← hlast] at hbytes
  exact ⟨hqueues.holds.popBack, Nat.sub_eq_of_eq_add hbytes,
    Nat.le_trans (Nat.sub_le _ _) hqueues.bytes_le⟩

theorem alike_removeLast (egress : UdpEgress) : egress.Alike egress.removeLast :=
  ⟨RingBuffer.capacity_popBack _, rfl, rfl, rfl⟩

theorem Queues.removeHead {items : List UdpPacket} (hqueues : Queues egress (packet :: items)) :
    egress.removeHead.Queues items := by
  have hhead : egress.packetSize 0 = packet.data.length := packetSize_eq hqueues rfl
  have hbytes := hqueues.bytes_eq
  rw [packetBytes_cons, Nat.add_comm, ← hhead] at hbytes
  exact ⟨hqueues.holds.popFront, Nat.sub_eq_of_eq_add hbytes,
    Nat.le_trans (Nat.sub_le _ _) hqueues.bytes_le⟩

/-- Taking back as many copies as were queued leaves the queue it was. -/
theorem rollBack_queues {items queued : List UdpPacket} {egress : UdpEgress}
    (hqueues : egress.Queues (items ++ queued)) :
    (rollBack queued.length egress).Queues items ∧
      egress.Alike (rollBack queued.length egress) := by
  induction queued using List.reverseRecOn generalizing egress with
  | nil =>
      rw [List.append_nil] at hqueues
      exact ⟨hqueues, .refl egress⟩
  | append_singleton queued packet ih =>
      rw [← List.append_assoc] at hqueues
      obtain ⟨hback, halike⟩ := ih hqueues.removeLast
      rw [List.length_append, List.length_singleton, rollBack]
      exact ⟨hback, (alike_removeLast egress).trans halike⟩

/-- The remainder is copied whole, or what was copied of it is taken back. -/
theorem queueCopies_queues {items queued : List UdpPacket} {egress : UdpEgress}
    (destination : Bytes) (mallocs : Nat → Bool) (datagrams : List Bytes)
    (hqueues : egress.Queues (items ++ queued))
    (hroom : (items ++ queued).length + datagrams.length ≤ egress.ring.capacity)
    (hbytes : egress.bytes + Totals.total List.length datagrams ≤ egress.maxBytes) :
    ∃ egress' ok, queueCopies destination mallocs queued.length datagrams egress = (ok, egress') ∧
      egress.Alike egress' ∧
      egress'.Queues (if ok then
        items ++ queued ++ datagrams.map (UdpPacket.mk destination) else items) := by
  induction datagrams generalizing queued egress with
  | nil => exact ⟨egress, true, rfl, .refl egress, by simpa using hqueues⟩
  | cons datagram rest ih =>
      rw [List.length_cons] at hroom
      rw [Totals.total_cons] at hbytes
      rw [queueCopies]
      split
      · have happended := @Queues.append _ _ ⟨destination, datagram⟩ hqueues (by omega)
          (Nat.le_trans (Nat.add_le_add_left (Nat.le_add_right _ _) _) hbytes)
        rw [List.append_assoc] at happended
        have hone := ih happended (by
          rw [alike_append egress _ |>.capacity_eq, ← List.append_assoc, List.length_append,
            List.length_singleton]
          omega) (by
          change egress.bytes + datagram.length + _ ≤ _
          rw [Nat.add_assoc]
          exact hbytes)
        rw [List.length_append, List.length_singleton] at hone
        obtain ⟨egress', ok, hcopies, halike, hout⟩ := hone
        refine ⟨egress', ok, hcopies, (alike_append egress _).trans halike, ?_⟩
        simpa using hout
      · obtain ⟨hback, halike⟩ := rollBack_queues hqueues
        exact ⟨_, false, rfl, halike, hback⟩

theorem sumLengths_eq (datagrams : List Bytes) :
    ∀ bytes, sumLengths datagrams bytes = some sum → sum = bytes + Totals.total List.length datagrams := by
  induction datagrams with
  | nil =>
      intro bytes h
      cases h
      rfl
  | cons datagram rest ih =>
      intro bytes h
      rw [sumLengths] at h
      split at h
      · cases h
      · rw [ih _ h, Totals.total_cons, Nat.add_assoc]

end UdpEgress

end Qlinq
