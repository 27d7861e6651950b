import Qlinq.Lib.LinkedQueue
import Qlinq.Lib.Totals
import Qlinq.TrackStream

namespace Qlinq

/-! The events that a context keeps for its application, as a list of linked nodes. -/

inductive QlinqStatus where
  | ok
  | again
  | invalid
  | state
  | noMemory
  | io
  | resourceLimit
  deriving DecidableEq, Repr

inductive EventType where
  | peerReady
  | peerRejected
  | peerDisconnected
  | subscriberJoined
  | subscriberLeft
  | record
  | recordLost
  | keyframeRequested
  | streamWritable
  | error
  deriving DecidableEq, Repr

structure DisconnectInfo where
  errorCode : Nat
  rawError : Int
  applicationError : Bool
  offendingFrameType : Nat
  remote : Bool
  wasReady : Bool
  outgoing : Bool
  deriving DecidableEq, Repr

/-- An event with the payload and the message that are copied behind it.  Only a record has
the former. -/
structure QlinqEvent where
  type : EventType
  endpoint : Nat
  peerId : Nat := 0
  status : QlinqStatus := .ok
  track : Option TrackId := none
  groupId : Nat := 0
  sequence : Nat := 0
  isKeyframe : Bool := false
  priority : UInt8 := 0
  disconnect : Option DisconnectInfo := none
  payload : Bytes := []
  message : Option Bytes := none
  deriving DecidableEq, Repr

/-- The bytes of a C string. -/
def text (s : String) : Bytes := s.toUTF8.data.toList

/-- A message is copied with its terminator. -/
def QlinqEvent.messageSize (event : QlinqEvent) : Nat :=
  match event.message with
  | none => 0
  | some message => message.length + 1

/-- The limits of a context as they are once it is created; `nodeBytes` is the size of a
node without what is copied behind it. -/
structure EventLimits where
  nodeBytes : Nat
  maxEvents : Nat
  maxBytes : Nat
  events_pos : 0 < maxEvents
  node_le : nodeBytes ≤ maxBytes
  maxBytes_le : maxBytes ≤ sizeMax

structure QueuedEvent where
  allocationSize : Nat
  event : QlinqEvent
  deriving DecidableEq, Repr

/-- What the successive calls of `calloc` return. -/
abbrev Callocs := Nat → Option Nat

/-- The queue of a context.  `accepted`, `popped` and `unreleased` are kept for
specification: the events that were queued and handed out so far, and the nodes that the
application holds. -/
structure EventList where
  limits : EventLimits
  list : LinkedQueue QueuedEvent := {}
  queuedEvents : Nat := 0
  queuedEventBytes : Nat := 0
  lastStatus : QlinqStatus := .ok
  callocs : Nat := 0
  accepted : List QlinqEvent := []
  popped : List QlinqEvent := []
  unreleased : List Nat := []

namespace EventList

def setStatus (q : EventList) (status : QlinqStatus) : EventList :=
  { q with lastStatus := status }

/-- The next call of `calloc`; memory in use is never handed out again. -/
def calloc (q : EventList) (callocs : Callocs) : EventList × Option Nat :=
  ({ q with callocs := q.callocs + 1 },
    (callocs q.callocs).filter fun address => (q.list.heap address).isNone)

/-- `queue_event`. -/
def queueEvent (q : EventList) (callocs : Callocs) (event : QlinqEvent) : EventList × Bool :=
  let payloadSize := event.payload.length
  let messageSize := event.messageSize
  if sizeMax < messageSize ∨ sizeMax - q.limits.nodeBytes < payloadSize ∨
      sizeMax - q.limits.nodeBytes - payloadSize < messageSize then
    (q.setStatus .invalid, false)
  else
    let allocationSize := q.limits.nodeBytes + payloadSize + messageSize
    if q.limits.maxEvents ≤ q.queuedEvents ∨ q.limits.maxBytes < q.queuedEventBytes ∨
        q.limits.maxBytes - q.queuedEventBytes < allocationSize then
      (q.setStatus .resourceLimit, false)
    else
      match q.calloc callocs with
      | (q, none) => (q.setStatus .noMemory, false)
      | (q, some address) =>
          ({ q with
              list := q.list.push address { allocationSize := allocationSize, event := event }
              queuedEvents := q.queuedEvents + 1
              queuedEventBytes := q.queuedEventBytes + allocationSize
              accepted := q.accepted ++ [event] },
            true)

/-- `queue_error`. -/
def queueError (q : EventList) (callocs : Callocs) (endpoint : Nat) (status : QlinqStatus)
    (message : String) : EventList :=
  ((q.setStatus status).queueEvent callocs
    { type := .error, endpoint := endpoint, status := status
      message := some (text message) }).1

/-- `qlinq_next_event`. -/
def nextEvent (q : EventList) : EventList × Option QlinqEvent :=
  match q.list.pop with
  | none => (q, none)
  | some (address, node, list) =>
      ({ q with
          list := list
          queuedEvents := q.queuedEvents - 1
          queuedEventBytes := q.queuedEventBytes - node.allocationSize
          popped := q.popped ++ [node.event]
          unreleased := address :: q.unreleased },
        some node.event)

/-- `qlinq_event_release` of an event that was handed out. -/
def releaseEvent (q : EventList) (address : Nat) : EventList :=
  if address ∈ q.unreleased then
    { q with list := q.list.free address, unreleased := q.unreleased.erase address }
  else
    q

/-! ### What the queue keeps -/

/-- The nodes in the list are those that the counters count, and the events that were
accepted and not handed out, in order.  The application holds other nodes. -/
structure Counts (q : EventList) (nodes : List (Nat × QueuedEvent)) : Prop where
  holds : q.list.Holds nodes
  events_eq : q.queuedEvents = nodes.length
  bytes_eq : q.queuedEventBytes = Totals.total (·.2.allocationSize) nodes
  order : q.accepted = q.popped ++ nodes.map (·.2.event)
  held : ∀ address ∈ q.unreleased,
    (q.list.heap address).isSome ∧ address ∉ nodes.map Prod.fst
  held_once : q.unreleased.Nodup

structure Sound (q : EventList) : Prop where
  counts : ∃ nodes, q.Counts nodes
  events_le : q.queuedEvents ≤ q.limits.maxEvents
  bytes_le : q.queuedEventBytes ≤ q.limits.maxBytes

/-- The queue is as it was; its status may differ. -/
structure Same (q after : EventList) : Prop where
  limits_eq : after.limits = q.limits
  list_eq : after.list = q.list
  events_eq : after.queuedEvents = q.queuedEvents
  bytes_eq : after.queuedEventBytes = q.queuedEventBytes
  accepted_eq : after.accepted = q.accepted
  popped_eq : after.popped = q.popped
  unreleased_eq : after.unreleased = q.unreleased

theorem same_setStatus (q : EventList) (status : QlinqStatus) : Same q (q.setStatus status) :=
  ⟨rfl, rfl, rfl, rfl, rfl, rfl, rfl⟩

theorem same_calloc (q : EventList) (callocs : Callocs) : Same q (q.calloc callocs).1 :=
  ⟨rfl, rfl, rfl, rfl, rfl, rfl, rfl⟩

theorem Same.counts {q after : EventList} (hsame : Same q after) (hcounts : q.Counts nodes) :
    after.Counts nodes where
  holds := hsame.list_eq ▸ hcounts.holds
  events_eq := hsame.events_eq.trans hcounts.events_eq
  bytes_eq := hsame.bytes_eq.trans hcounts.bytes_eq
  order := by rw [hsame.accepted_eq, hsame.popped_eq, hcounts.order]
  held := by
    rw [hsame.unreleased_eq, hsame.list_eq]
    exact hcounts.held
  held_once := hsame.unreleased_eq ▸ hcounts.held_once

theorem Same.sound {q after : EventList} (hsame : Same q after) (hsound : q.Sound) :
    after.Sound := by
  obtain ⟨nodes, hcounts⟩ := hsound.counts
  exact
    { counts := ⟨nodes, hsame.counts hcounts⟩
      events_le := by
        rw [hsame.events_eq, hsame.limits_eq]
        exact hsound.events_le
      bytes_le := by
        rw [hsame.bytes_eq, hsame.limits_eq]
        exact hsound.bytes_le }

theorem sound_initial (limits : EventLimits) : Sound { limits := limits } where
  counts := ⟨[],
    { holds := LinkedQueue.holds_empty
      events_eq := rfl
      bytes_eq := rfl
      order := rfl
      held := fun _ hmem => absurd hmem List.not_mem_nil
      held_once := List.nodup_nil }⟩
  events_le := Nat.zero_le _
  bytes_le := Nat.zero_le _

/-! ### Queueing -/

/-- How an attempt to queue an event ends. -/
inductive Queued (q : EventList) (event : QlinqEvent) : EventList × Bool → Prop
  | rejected (hsame : Same q after) : Queued q event (after, false)
  | accepted (address size : Nat) (hunused : q.list.heap address = none)
      (hevents : q.queuedEvents < q.limits.maxEvents)
      (hbytes : q.queuedEventBytes + size ≤ q.limits.maxBytes)
      (hqueued : Same
        { q with
          list := q.list.push address { allocationSize := size, event := event }
          queuedEvents := q.queuedEvents + 1
          queuedEventBytes := q.queuedEventBytes + size
          accepted := q.accepted ++ [event] } after) : Queued q event (after, true)

theorem queued_queueEvent (q : EventList) (callocs : Callocs) (event : QlinqEvent) :
    Queued q event (q.queueEvent callocs event) := by
  unfold queueEvent
  extract_lets payloadSize messageSize allocationSize
  split
  · exact .rejected (same_setStatus q .invalid)
  split
  · exact .rejected (same_setStatus q .resourceLimit)
  next hroom =>
  split
  · next later hcalloc =>
      obtain ⟨rfl, -⟩ := Prod.mk.inj hcalloc
      exact .rejected ⟨rfl, rfl, rfl, rfl, rfl, rfl, rfl⟩
  · next later address hcalloc =>
      obtain ⟨rfl, haddress⟩ := Prod.mk.inj hcalloc
      have hunused := Option.isNone_iff_eq_none.mp (Option.filter_eq_some_iff.mp haddress).2
      exact .accepted address allocationSize hunused (by omega) (by omega)
        ⟨rfl, rfl, rfl, rfl, rfl, rfl, rfl⟩

theorem counts_push {q : EventList} (hcounts : q.Counts nodes)
    (hunused : q.list.heap address = none) (size : Nat) (event : QlinqEvent) :
    Counts
      { q with
        list := q.list.push address { allocationSize := size, event := event }
        queuedEvents := q.queuedEvents + 1
        queuedEventBytes := q.queuedEventBytes + size
        accepted := q.accepted ++ [event] }
      (nodes ++ [(address, { allocationSize := size, event := event })]) where
  holds := LinkedQueue.holds_push hcounts.holds hunused _
  events_eq := by
    rw [List.length_append, ← hcounts.events_eq]
    rfl
  bytes_eq := by rw [Totals.total_concat, ← hcounts.bytes_eq]
  order := by
    change q.accepted ++ [event] = _
    rw [hcounts.order, List.map_append, List.append_assoc]
    rfl
  held := by
    intro other hother
    obtain ⟨hallocated, hapart⟩ := hcounts.held other hother
    refine ⟨LinkedQueue.isSome_push q.list hunused other hallocated, ?_⟩
    rw [List.map_append, List.mem_append, not_or]
    refine ⟨hapart, fun hhere => ?_⟩
    obtain rfl := List.mem_singleton.mp hhere
    rw [hunused] at hallocated
    cases hallocated
  held_once := hcounts.held_once

theorem sound_queueEvent {q : EventList} (hsound : q.Sound) (callocs : Callocs)
    (event : QlinqEvent) : (q.queueEvent callocs event).1.Sound := by
  obtain ⟨nodes, hcounts⟩ := hsound.counts
  have hqueued := queued_queueEvent q callocs event
  generalize q.queueEvent callocs event = result at hqueued
  cases hqueued with
  | rejected hsame => exact hsame.sound hsound
  | accepted address size hunused hevents hbytes hqueued =>
      exact hqueued.sound
        { counts := ⟨_, counts_push hcounts hunused size event⟩
          events_le := hevents
          bytes_le := hbytes }

/-- An event that is not accepted leaves the queue alone. -/
theorem same_of_rejected (q : EventList) (callocs : Callocs) (event : QlinqEvent)
    (hrejected : (q.queueEvent callocs event).2 = false) :
    Same q (q.queueEvent callocs event).1 := by
  have hqueued := queued_queueEvent q callocs event
  generalize q.queueEvent callocs event = result at hqueued hrejected
  cases hqueued with
  | rejected hsame => exact hsame
  | accepted => cases hrejected

theorem sound_queueError {q : EventList} (hsound : q.Sound) (callocs : Callocs)
    (endpoint : Nat) (status : QlinqStatus) (message : String) :
    (q.queueError callocs endpoint status message).Sound :=
  sound_queueEvent ((same_setStatus q status).sound hsound) callocs _

/-! ### Handing out -/

/-- The oldest node is handed out. -/
theorem counts_nextEvent {q : EventList} (hcounts : q.Counts ((address, queued) :: rest)) :
    q.nextEvent.2 = some queued.event ∧ q.nextEvent.1.Counts rest ∧
      q.nextEvent.1.limits = q.limits := by
  obtain ⟨popped, hpop, hholds, hheap⟩ := LinkedQueue.pop_eq_some hcounts.holds
  have hevents := hcounts.events_eq
  have hbytes := hcounts.bytes_eq
  rw [List.length_cons] at hevents
  rw [Totals.total_cons] at hbytes
  simp only [nextEvent, hpop, true_and, and_true]
  exact
    { holds := hholds
      events_eq := by
        change q.queuedEvents - 1 = rest.length
        omega
      bytes_eq := Nat.sub_eq_of_eq_add (hbytes.trans (Nat.add_comm _ _))
      order := by
        change q.accepted = q.popped ++ [queued.event] ++ _
        rw [hcounts.order, List.append_assoc]
        rfl
      held := by
        have hfirst := List.nodup_cons.mp hcounts.holds.nodup
        refine List.forall_mem_cons.mpr ⟨⟨?_, hfirst.1⟩, fun other hother => ?_⟩
        · rw [hheap]
          exact hcounts.holds.chain.allocated List.mem_cons_self
        · obtain ⟨hallocated, hapart⟩ := hcounts.held other hother
          refine ⟨?_, fun hmem => hapart (List.mem_cons_of_mem _ hmem)⟩
          rwa [hheap]
      held_once := List.nodup_cons.mpr
        ⟨fun hmem => (hcounts.held address hmem).2 List.mem_cons_self, hcounts.held_once⟩ }

theorem nextEvent_of_empty {q : EventList} (hcounts : q.Counts []) :
    q.nextEvent = (q, none) := by
  simp only [nextEvent, LinkedQueue.pop_eq_none hcounts.holds]

theorem sound_nextEvent {q : EventList} (hsound : q.Sound) : q.nextEvent.1.Sound := by
  obtain ⟨nodes, hcounts⟩ := hsound.counts
  have hevents_le := hsound.events_le
  have hbytes_le := hsound.bytes_le
  cases nodes with
  | nil =>
      rw [nextEvent_of_empty hcounts]
      exact hsound
  | cons node rest =>
      obtain ⟨-, hrest, hlimits⟩ := counts_nextEvent hcounts
      have hevents := hcounts.events_eq
      have hbytes := hcounts.bytes_eq
      rw [List.length_cons] at hevents
      rw [Totals.total_cons] at hbytes
      refine ⟨⟨rest, hrest⟩, ?_, ?_⟩
      · rw [hrest.events_eq, hlimits]
        omega
      · rw [hrest.bytes_eq, hlimits]
        omega

theorem sound_releaseEvent {q : EventList} (hsound : q.Sound) (address : Nat) :
    (q.releaseEvent address).Sound := by
  unfold releaseEvent
  split
  · next hheld =>
      obtain ⟨nodes, hcounts⟩ := hsound.counts
      have hapart := (hcounts.held address hheld).2
      exact
        { counts := ⟨nodes,
            { holds := LinkedQueue.holds_free hcounts.holds hapart
              events_eq := hcounts.events_eq
              bytes_eq := hcounts.bytes_eq
              order := hcounts.order
              held := by
                intro other hother
                obtain ⟨hne, hmem⟩ := (List.Nodup.mem_erase_iff hcounts.held_once).mp hother
                obtain ⟨hallocated, hother⟩ := hcounts.held other hmem
                refine ⟨?_, hother⟩
                change (Function.update q.list.heap address none other).isSome
                rwa [Function.update_of_ne hne]
              held_once := hcounts.held_once.erase address }⟩
          events_le := hsound.events_le
          bytes_le := hsound.bytes_le }
  · exact hsound

/-! ### The queue as the sizes of its nodes -/

def sizes (q : EventList) (nodes : List (Nat × QueuedEvent)) : EventQueue where
  maxQueuedEvents := q.limits.maxEvents
  maxQueuedEventBytes := q.limits.maxBytes
  nodeSize := q.limits.nodeBytes
  sizes := nodes.map (·.2.allocationSize)

theorem queueEvent_refines {q : EventList} (hcounts : q.Counts nodes) (callocs : Callocs)
    (event : QlinqEvent) (haccepted : (q.queueEvent callocs event).2 = true) :
    ∃ nodes', (q.queueEvent callocs event).1.Counts nodes' ∧
      (q.sizes nodes).queueEvent event.payload.length event.messageSize =
        some ((q.queueEvent callocs event).1.sizes nodes') := by
  unfold queueEvent at haccepted ⊢
  extract_lets payloadSize messageSize allocationSize at haccepted ⊢
  split at haccepted
  · cases haccepted
  next hsizes =>
  rw [if_neg hsizes]
  split at haccepted
  · cases haccepted
  next hroom =>
  rw [if_neg hroom]
  split at haccepted
  · cases haccepted
  next later address hcalloc =>
  obtain ⟨rfl, haddress⟩ := Prod.mk.inj hcalloc
  have hunused := Option.isNone_iff_eq_none.mp (Option.filter_eq_some_iff.mp haddress).2
  refine ⟨nodes ++ [(address, { allocationSize := allocationSize, event := event })], ?_, ?_⟩
  · have hpushed := counts_push hcounts hunused allocationSize event
    exact ⟨hpushed.holds, hpushed.events_eq, hpushed.bytes_eq, hpushed.order, hpushed.held,
      hpushed.held_once⟩
  · have hbytes : (q.sizes nodes).queuedEventBytes = q.queuedEventBytes := hcounts.bytes_eq.symm
    have hevents : (q.sizes nodes).sizes.length = q.queuedEvents := by
      rw [hcounts.events_eq]
      exact List.length_map _
    have hfits : (q.sizes nodes).hasRoom payloadSize messageSize = true := by
      simp only [EventQueue.hasRoom, hbytes, hevents, Bool.and_eq_true, Bool.not_eq_true',
        Bool.or_eq_false_iff, decide_eq_false_iff_not]
      change (¬ sizeMax - q.limits.nodeBytes < payloadSize ∧
          ¬ sizeMax - q.limits.nodeBytes - payloadSize < messageSize) ∧
        (¬ q.limits.maxEvents ≤ q.queuedEvents ∧ ¬ q.limits.maxBytes < q.queuedEventBytes) ∧
          ¬ q.limits.maxBytes - q.queuedEventBytes < allocationSize
      omega
    rw [EventQueue.queueEvent, if_pos hfits]
    simp only [sizes, List.map_append, List.map_cons, List.map_nil]
    rfl

theorem nextEvent_refines {q : EventList} (hcounts : q.Counts nodes) :
    ∃ nodes', q.nextEvent.1.Counts nodes' ∧
      (q.sizes nodes).nextEvent = q.nextEvent.1.sizes nodes' := by
  cases nodes with
  | nil =>
      rw [nextEvent_of_empty hcounts]
      exact ⟨[], hcounts, rfl⟩
  | cons node rest =>
      obtain ⟨-, hrest, hlimits⟩ := counts_nextEvent hcounts
      refine ⟨rest, hrest, ?_⟩
      simp only [EventQueue.nextEvent, sizes, hlimits, List.map_cons, List.tail_cons]

end EventList

end Qlinq
