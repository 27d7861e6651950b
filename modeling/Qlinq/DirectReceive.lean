import Qlinq.DirectTunnel
import Qlinq.HandedOut

namespace Qlinq

/-! What becomes of the records that a direct tunnel receives. -/

namespace ReceiveQueue

/-- What is written comes off the front of the queue. -/
theorem flushPackets_holds {ring : RingBuffer Bytes} (hholds : ring.Holds items)
    (writes : List TunWrite) :
    ∃ left, (flushPackets writes ring).1.Holds left ∧
      items = (flushPackets writes ring).2.1 ++ left ∧
      (flushPackets writes ring).1.capacity = ring.capacity := by
  induction writes generalizing ring items with
  | nil => exact ⟨items, hholds, rfl, rfl⟩
  | cons write rest ih =>
      unfold flushPackets
      split
      · exact ⟨items, hholds, rfl, rfl⟩
      next hcount =>
      cases write with
      | interrupted => exact ih hholds
      | blocked => exact ⟨items, hholds, rfl, rfl⟩
      | failed => exact ⟨items, hholds, rfl, rfl⟩
      | written =>
          cases items with
          | nil => exact absurd hholds.count_eq hcount
          | cons packet items =>
              obtain ⟨left, hleft, hsplit, hcapacity⟩ := ih hholds.popFront
              have hpeek : ring.peek 0 = some packet :=
                hholds.peek_eq (Nat.pos_of_ne_zero hcount)
              refine ⟨left, hleft, ?_, hcapacity.trans ring.capacity_popFront⟩
              simp only [hpeek, Option.toList_some, List.cons_append, List.nil_append]
              rw [← hsplit]

/-- Each record was written, waits or was dropped. -/
structure Keeps (queue : ReceiveQueue) (written records items : List Bytes) : Prop where
  ring : queue.ring.Holds items
  capacity : queue.ring.capacity = receiveQueueCapacity
  valid : ∀ packet ∈ written ++ items, validPacket packet = true
  order : (written ++ items).Sublist records
  counts : (written ++ items).length + queue.dropped = records.length

variable {queue : ReceiveQueue} {written records items : List Bytes}

theorem keeps_empty : Keeps {} [] [] [] where
  ring := RingBuffer.Holds.empty (by decide)
  capacity := List.length_replicate
  valid := by simp
  order := List.Sublist.refl []
  counts := rfl

theorem Keeps.drop (hkeeps : queue.Keeps written records items) (data : Bytes) :
    Keeps { queue with dropped := queue.dropped + 1 } written (records ++ [data]) items where
  ring := hkeeps.ring
  capacity := hkeeps.capacity
  valid := hkeeps.valid
  order := hkeeps.order.trans (List.sublist_append_left _ _)
  counts := by
    change (written ++ items).length + (queue.dropped + 1) = _
    rw [← Nat.add_assoc, hkeeps.counts, List.length_append]
    rfl

theorem Keeps.enqueuePacket (hkeeps : queue.Keeps written records items) (data : Bytes) :
    ∃ items', (queue.enqueuePacket data).Keeps written (records ++ [data]) items' := by
  unfold ReceiveQueue.enqueuePacket
  split
  · exact ⟨items, hkeeps.drop data⟩
  next hroom =>
  obtain ⟨hvalid, hcount⟩ := not_or.mp hroom
  have hfits : items.length < queue.ring.capacity := by
    have hle := hkeeps.ring.fits
    have hlength := hkeeps.ring.count_eq
    rw [hkeeps.capacity] at hle ⊢
    omega
  refine ⟨items ++ [data], hkeeps.ring.pushBack hfits data,
    (queue.ring.capacity_pushBack data).trans hkeeps.capacity, ?_, ?_, ?_⟩
  · intro packet hpacket
    rw [← List.append_assoc] at hpacket
    cases List.mem_append.mp hpacket with
    | inl hbefore => exact hkeeps.valid packet hbefore
    | inr hlast =>
        obtain rfl := List.mem_singleton.mp hlast
        exact Bool.not_eq_false _ |>.mp hvalid
  · rw [← List.append_assoc]
    exact hkeeps.order.append_right [data]
  · have hcounts := hkeeps.counts
    simp only [List.length_append, List.length_singleton] at hcounts ⊢
    omega

theorem Keeps.flush (hkeeps : queue.Keeps written records items) (writes : List TunWrite) :
    ∃ left, Keeps { queue with ring := (flushPackets writes queue.ring).1 }
      (written ++ (flushPackets writes queue.ring).2.1) records left := by
  obtain ⟨left, hleft, hsplit, hcapacity⟩ := flushPackets_holds hkeeps.ring writes
  have hsame : written ++ (flushPackets writes queue.ring).2.1 ++ left = written ++ items := by
    rw [List.append_assoc, ← hsplit]
  refine ⟨left, hleft, hcapacity.trans hkeeps.capacity, ?_, ?_, ?_⟩
  · rw [hsame]
    exact hkeeps.valid
  · rw [hsame]
    exact hkeeps.order
  · rw [hsame]
    exact hkeeps.counts

end ReceiveQueue

namespace TunnelMark

def event? : TunnelMark → Option QlinqEvent
  | .event told => some told
  | _ => none

end TunnelMark

namespace DirectTunnel

variable {t : DirectTunnel} {items : List Bytes} {limits : EventLimits}

/-- The events that the tunnel was handed. -/
def handled (t : DirectTunnel) : List QlinqEvent := t.marks.filterMap TunnelMark.event?

/-- The payloads of its subscription's records. -/
def records (t : DirectTunnel) : List Bytes :=
  (t.handled.filter (isRecordOf 0 t.profile)).map (·.payload)

/-- The tunnel runs its context, was handed every event that the context handed out, and keeps
account of its records. -/
structure Receiving (limits : EventLimits) (profile : SubscribedStream) (t : DirectTunnel) :
    Prop where
  profile_eq : t.profile = profile
  facade_eq : ∃ ops, t.facade = Facade.run limits ops
  popped : t.facade.context.events.popped = t.handled
  kept : ∃ items, t.queue.Keeps t.written t.records items
  received : t.received = t.records.countP validPacket

variable {profile : SubscribedStream}

theorem run_concat {f : Facade} (hrun : ∃ ops, f = Facade.run limits ops) (op : Facade.Op) :
    ∃ ops, f.apply op = Facade.run limits ops := by
  obtain ⟨ops, rfl⟩ := hrun
  refine ⟨ops ++ [op], ?_⟩
  rw [Facade.run, Facade.run, Machine.run_append]
  rfl

/-- A step of the context that hands out nothing. -/
theorem Receiving.apply (hreceiving : Receiving limits profile t) {op : Facade.Op}
    (hop : op ≠ .nextEvent) :
    Receiving limits profile { t with facade := t.facade.apply op } where
  profile_eq := hreceiving.profile_eq
  facade_eq := run_concat hreceiving.facade_eq op
  popped := (t.facade.popped_apply hop).trans hreceiving.popped
  kept := hreceiving.kept
  received := hreceiving.received

/-- Marks that are no events, and the rest of the state, are of no account. -/
theorem Receiving.same (hreceiving : Receiving limits profile t) {t' : DirectTunnel}
    (hprofile : t'.profile = t.profile) (hfacade : t'.facade = t.facade)
    (hhandled : t'.handled = t.handled) (hqueue : t'.queue = t.queue)
    (hwritten : t'.written = t.written) (hreceived : t'.received = t.received) :
    Receiving limits profile t' := by
  have hrecords : t'.records = t.records := by rw [records, records, hhandled, hprofile]
  constructor
  · rw [hprofile]
    exact hreceiving.profile_eq
  · rw [hfacade]
    exact hreceiving.facade_eq
  · rw [hfacade, hhandled]
    exact hreceiving.popped
  · rw [hqueue, hwritten, hrecords]
    exact hreceiving.kept
  · rw [hreceived, hrecords]
    exact hreceiving.received

theorem handled_mark {t' : DirectTunnel} {mark : TunnelMark}
    (hmarks : t'.marks = t.marks ++ [mark]) : t'.handled = t.handled ++ mark.event?.toList := by
  rw [handled, hmarks, List.filterMap_append, handled]
  cases hevent : mark.event? with
  | none => rw [List.filterMap_cons_none hevent]; rfl
  | some event => rw [List.filterMap_cons_some hevent]; rfl

/-! ### Events -/

theorem popped_nextEvent {events : EventList} {event : QlinqEvent}
    (hnext : t.facade.context.events.nextEvent = (events, some event)) :
    (t.facade.apply .nextEvent).context.events.popped =
      t.facade.context.events.popped ++ [event] := by
  unfold EventList.nextEvent at hnext
  simp only [Facade.apply, QlinqContext.apply, EventList.nextEvent]
  split at hnext
  · cases hnext
  · cases hnext
    rfl

theorem records_event {t' : DirectTunnel} {event : QlinqEvent}
    (hmarks : t'.marks = t.marks ++ [.event event]) (hprofile : t'.profile = t.profile) :
    t'.records = t.records ++ if isRecordOf 0 t.profile event then [event.payload] else [] := by
  have hhandled : t'.handled = t.handled ++ [event] := handled_mark hmarks
  rw [records, hhandled, hprofile, List.filter_append, List.map_append, records]
  cases hrecord : isRecordOf 0 t.profile event with
  | true => simp [hrecord]
  | false => simp [hrecord]

/-- An event is handed out and handled. -/
theorem receiving_event (hreceiving : Receiving limits profile t)
    {events : EventList} {event : QlinqEvent}
    (hnext : t.facade.context.events.nextEvent = (events, some event)) :
    Receiving limits profile (onEvent { t with facade := t.facade.apply .nextEvent } event) := by
  have hpopped := popped_nextEvent hnext
  rw [hreceiving.popped] at hpopped
  have hstep : ∀ {t' : DirectTunnel} {more : List Bytes},
      (if isRecordOf 0 t.profile event then [event.payload] else []) = more →
      t'.marks = t.marks ++ [.event event] → t'.profile = t.profile →
      t'.facade = t.facade.apply .nextEvent →
      (∃ items, t'.queue.Keeps t'.written (t.records ++ more) items) →
      t'.received = (t.records ++ more).countP validPacket → Receiving limits profile t' := by
    intro t' more hmore hmarks hprofile hfacade hkept hreceived
    have hrecords := records_event hmarks hprofile
    rw [hmore] at hrecords
    refine ⟨hprofile.trans hreceiving.profile_eq, ?_, ?_, ?_, ?_⟩
    · rw [hfacade]
      exact run_concat hreceiving.facade_eq .nextEvent
    · rw [hfacade, handled_mark hmarks]
      exact hpopped
    · rw [hrecords]
      exact hkept
    · rw [hrecords]
      exact hreceived
  obtain ⟨items, hkeeps⟩ := hreceiving.kept
  have hcount := hreceiving.received
  have hnothing : t.received = (t.records ++ []).countP validPacket := by
    rw [List.append_nil]
    exact hcount
  have hsame : ∃ items, t.queue.Keeps t.written (t.records ++ []) items := by
    rw [List.append_nil]
    exact ⟨items, hkeeps⟩
  unfold onEvent
  extract_lets marked
  split
  · next hrecord =>
      split
      · next hvalid =>
          refine hstep (if_pos hrecord) rfl rfl rfl (hkeeps.enqueuePacket event.payload) ?_
          rw [List.countP_append, ← hcount, List.countP_singleton, if_pos hvalid]
      · next hinvalid =>
          refine hstep (if_pos hrecord) rfl rfl rfl ⟨items, hkeeps.drop event.payload⟩ ?_
          rw [List.countP_append, ← hcount, List.countP_singleton, if_neg hinvalid]
          rfl
  · next hrecord =>
      split
      · exact hstep (if_neg hrecord) rfl rfl rfl hsame hnothing
      · exact hstep (if_neg hrecord) rfl rfl rfl hsame hnothing

theorem receiving_publish (hreceiving : Receiving limits profile t) (data : Bytes)
    (answer : PublishResult) : Receiving limits profile (t.publish data answer).1 := by
  have happly : Receiving limits profile
      { t with facade := t.facade.apply (.sendRecord 0 publisherId answer) } :=
    hreceiving.apply (by simp)
  have hsent : Receiving limits profile
      { t with facade := (t.facade.sendRecord 0 publisherId answer).1 } := happly
  unfold publish
  cases hsend : t.facade.sendRecord 0 publisherId answer with
  | mk facade result =>
      rw [hsend] at hsent
      cases result with
      | sent => exact hsent.same rfl rfl ((handled_mark rfl).trans (List.append_nil _)) rfl rfl rfl
      | buffered =>
          exact hsent.same rfl rfl ((handled_mark rfl).trans (List.append_nil _)) rfl rfl rfl
      | partialDelivery =>
          exact hsent.same rfl rfl ((handled_mark rfl).trans (List.append_nil _)) rfl rfl rfl
      | noSubscribers => exact hsent
      | wouldBlock => exact hsent
      | invalid => exact hsent.same rfl rfl rfl rfl rfl rfl
      | failed => exact hsent.same rfl rfl rfl rfl rfl rfl

theorem receiving_sendRound (hreceiving : Receiving limits profile t) (read : TunRead)
    (answer : PublishResult) : Receiving limits profile (t.sendRound read answer).1 := by
  unfold sendRound
  split
  · next data hpending => exact receiving_publish hreceiving data answer
  next hnone =>
  cases read with
  | interrupted => exact hreceiving
  | blocked => exact hreceiving
  | failed => exact hreceiving.same rfl rfl rfl rfl rfl rfl
  | packet data =>
      simp only
      split
      · exact hreceiving.same rfl rfl rfl rfl rfl rfl
      split
      · refine receiving_publish ?_ _ answer
        exact hreceiving.same rfl rfl ((handled_mark rfl).trans (List.append_nil _)) rfl rfl rfl
      · exact hreceiving.same rfl rfl ((handled_mark rfl).trans (List.append_nil _)) rfl rfl rfl

theorem steps_receiving (limits : EventLimits) (profile : SubscribedStream) :
    Steps (Receiving limits profile) where
  service := fun env hreceiving => hreceiving.apply (by simp)
  stop := fun hreceiving => hreceiving.same rfl rfl rfl rfl rfl rfl
  takeEvent := by
    intro t t' hreceiving htake
    unfold takeEvent at htake
    split at htake
    · cases htake
    · next events event hnext =>
        cases htake
        exact (receiving_event hreceiving hnext).apply (by simp)
  flush := by
    intro t writes hreceiving
    obtain ⟨items, hkeeps⟩ := hreceiving.kept
    exact ⟨hreceiving.profile_eq, hreceiving.facade_eq, hreceiving.popped, hkeeps.flush writes,
      hreceiving.received⟩
  sendRound := fun read answer hreceiving => receiving_sendRound hreceiving read answer

theorem receiving_start (s : TunnelStart) : Receiving s.limits s.profile (start s) where
  profile_eq := rfl
  facade_eq := ⟨_, rfl⟩
  popped := by
    unfold start
    simp only [Facade.run, Machine.run_cons, Machine.run_nil]
    rw [Facade.popped_apply _ (by simp), Facade.popped_apply _ (by simp),
      Facade.popped_apply _ (by simp)]
    rfl
  kept := ⟨[], ReceiveQueue.keeps_empty⟩
  received := rfl

theorem receiving_run (s : TunnelStart) (turns : List TunnelTurn) :
    Receiving s.limits s.profile (run s turns) :=
  (steps_receiving s.limits s.profile).run s turns (receiving_start s)

/-! ### What waits in the context -/

def waiting (t : DirectTunnel) : Nat := t.facade.context.events.queuedEvents

theorem waiting_takeEvent_none (hsound : t.facade.Sound) (hnone : t.takeEvent = none) :
    t.waiting = 0 := by
  obtain ⟨nodes, hcounts⟩ := hsound.context.events.counts
  unfold takeEvent at hnone
  cases nodes with
  | nil => exact hcounts.events_eq
  | cons node rest =>
      obtain ⟨hevent, -, -⟩ := EventList.counts_nextEvent hcounts
      split at hnone
      · next events hnext =>
          rw [hnext] at hevent
          cases hevent
      · cases hnone

theorem waiting_takeEvent_some (hsound : t.facade.Sound) (hsome : t.takeEvent = some t') :
    t'.facade.Sound ∧ t.waiting = t'.waiting + 1 := by
  obtain ⟨nodes, hcounts⟩ := hsound.context.events.counts
  unfold takeEvent at hsome
  split at hsome
  · cases hsome
  next events event hnext =>
  have hfacade : (onEvent { t with facade := t.facade.apply .nextEvent } event).facade =
      t.facade.apply .nextEvent := by
    unfold onEvent
    extract_lets marked
    split
    · split <;> rfl
    · split <;> rfl
  cases hsome
  constructor
  · rw [hfacade]
    have hreleased := Facade.sound_apply (Facade.sound_apply hsound .nextEvent)
      (.releaseEvent (events.unreleased.headD 0))
    exact hreleased
  · have hrelease : ∀ (f : Facade) address,
        (f.apply (.releaseEvent address)).context.events.queuedEvents =
          f.context.events.queuedEvents := by
      intro f address
      simp only [Facade.apply, QlinqContext.apply, EventList.releaseEvent]
      split <;> rfl
    simp only [waiting]
    rw [hrelease, hfacade]
    cases nodes with
    | nil =>
        rw [EventList.nextEvent_of_empty hcounts] at hnext
        cases hnext
    | cons node rest =>
        obtain ⟨-, hrest, -⟩ := EventList.counts_nextEvent hcounts
        rw [hcounts.events_eq]
        exact congrArg (· + 1) hrest.events_eq.symm

/-- The event loop goes on until no event waits. -/
theorem waiting_takeEvents (hsound : t.facade.Sound) {rounds : Nat} (hrounds : t.waiting ≤ rounds) :
    (t.takeEvents rounds).waiting = 0 := by
  induction rounds generalizing t with
  | zero => exact Nat.le_zero.mp hrounds
  | succ rounds ih =>
      unfold takeEvents
      cases htake : t.takeEvent with
      | none => exact waiting_takeEvent_none hsound htake
      | some taken =>
          obtain ⟨hnext, hwaiting⟩ := waiting_takeEvent_some hsound htake
          exact ih hnext (by omega)

theorem context_publish (t : DirectTunnel) (data : Bytes) (answer : PublishResult) :
    (t.publish data answer).1.facade.context = t.facade.context := by
  have hcontext : (t.facade.sendRecord 0 publisherId answer).1.context = t.facade.context := by
    unfold Facade.sendRecord
    split
    · rfl
    · split <;> rfl
  unfold publish
  cases hsend : t.facade.sendRecord 0 publisherId answer with
  | mk facade result =>
      rw [hsend] at hcontext
      cases result <;> exact hcontext

theorem context_sendRound (t : DirectTunnel) (read : TunRead) (answer : PublishResult) :
    (t.sendRound read answer).1.facade.context = t.facade.context := by
  unfold sendRound
  split
  · exact context_publish t _ answer
  cases read with
  | interrupted => rfl
  | blocked => rfl
  | failed => rfl
  | packet data =>
      simp only
      split
      · rfl
      split
      · exact context_publish _ _ answer
      · rfl

theorem context_sendBatch (env : TunnelTurn) (rounds batch : Nat) (t : DirectTunnel) :
    (t.sendBatch env rounds batch).facade.context = t.facade.context := by
  induction rounds generalizing batch t with
  | zero => rfl
  | succ rounds ih =>
      have hround := t.context_sendRound (env.reads batch) (env.answers batch)
      unfold sendBatch
      split
      · next next hnext =>
          rw [hnext] at hround
          exact (ih (batch + 1) next).trans hround
      · next left hleft =>
          rw [hleft] at hround
          exact hround

theorem waiting_turn (hsound : t.facade.Sound) (env : TunnelTurn)
    (hgoes : (t.turn env).stopped = false) : (t.turn env).waiting = 0 := by
  unfold turn at hgoes ⊢
  split at hgoes
  · next hstopped =>
      rw [hstopped] at hgoes
      cases hgoes
  next hrunning =>
  rw [if_neg hrunning]
  have hserviced := Facade.sound_apply hsound (.service { env.env with timeoutMs := 2 })
  cases hserve : t.facade.service { env.env with timeoutMs := 2 } with
  | mk facade status =>
      have hfacade : t.facade.apply (.service { env.env with timeoutMs := 2 }) = facade :=
        congrArg Prod.fst hserve
      rw [hfacade] at hserviced
      simp only [hserve] at hgoes ⊢
      split at hgoes
      · cases hgoes
      next hok =>
      rw [if_neg hok]
      have hdrained := @waiting_takeEvents { t with facade := facade } hserviced
        facade.context.events.queuedEvents (Nat.le_refl _)
      split
      · exact hdrained
      · simp only [waiting]
        rw [context_sendBatch]
        exact hdrained

/-- What the streams of the tunnel's name have counted as received. -/
def subscribed (t : DirectTunnel) : Nat :=
  Totals.total (fun stream => if stream.profile = t.profile then stream.recordsReceived else 0)
    (t.facade.served 0).streams

theorem length_records (t : DirectTunnel) :
    t.records.length = t.handled.countP (isRecordOf 0 t.profile) := by
  rw [records, List.length_map, List.countP_eq_length_filter]

theorem subscribed_eq (hreceiving : Receiving limits profile t) (hwaiting : t.waiting = 0) :
    t.subscribed = t.records.length := by
  obtain ⟨ops, hops⟩ := hreceiving.facade_eq
  have hsound : t.facade.Sound := hops ▸ Facade.sound_run limits ops
  have hcount : t.subscribed =
      t.facade.context.events.accepted.countP (isRecordOf 0 t.profile) := by
    rw [subscribed, hops]
    exact (profileRecords 0 t.profile).sum.holds_run limits ops
  obtain ⟨nodes, hcounts⟩ := hsound.context.events.counts
  have hnodes : nodes = [] := List.length_eq_zero_iff.mp (hcounts.events_eq.symm.trans hwaiting)
  rw [hcount, hcounts.order, hnodes, List.map_nil, List.append_nil, hreceiving.popped,
    length_records]

/-- Every record that the tunnel was handed was written to the interface, waits for it or was
dropped, in order and only as a valid packet; and after a turn that does not stop the tunnel
these are all the records that its subscription counts. -/
theorem records_accounted (s : TunnelStart) (turns : List TunnelTurn) (last : TunnelTurn) :
    (∃ items, (run s (turns ++ [last])).queue.ring.Holds items ∧
      (∀ packet ∈ (run s (turns ++ [last])).written ++ items, validPacket packet = true) ∧
      ((run s (turns ++ [last])).written ++ items).Sublist (run s (turns ++ [last])).records ∧
      ((run s (turns ++ [last])).written ++ items).length +
          (run s (turns ++ [last])).queue.dropped =
        (run s (turns ++ [last])).records.length) ∧
      (run s (turns ++ [last])).received =
        (run s (turns ++ [last])).records.countP validPacket ∧
      ((run s (turns ++ [last])).stopped = false →
        (run s (turns ++ [last])).subscribed = (run s (turns ++ [last])).records.length) := by
  have hreceiving := receiving_run s (turns ++ [last])
  obtain ⟨items, hkeeps⟩ := hreceiving.kept
  refine ⟨⟨items, hkeeps.ring, hkeeps.valid, hkeeps.order, hkeeps.counts⟩,
    hreceiving.received, ?_⟩
  intro hgoes
  obtain ⟨ops, hops⟩ := (receiving_run s turns).facade_eq
  have hsound : (run s turns).facade.Sound := hops ▸ Facade.sound_run s.limits ops
  have hlast : run s (turns ++ [last]) = (run s turns).turn last := by
    rw [run, Machine.run_append]
    rfl
  refine subscribed_eq hreceiving ?_
  rw [hlast] at hgoes ⊢
  exact waiting_turn hsound last hgoes

/-! A turn with one packet each way. -/

def pingPacket : Bytes := [0x45, 0, 0, 20] ++ List.replicate 16 7

def pingStart : TunnelStart where
  limits :=
    { nodeBytes := 8, maxEvents := 12, maxBytes := 96, events_pos := by decide
      node_le := by decide, maxBytes_le := by decide }
  listener := true
  token := [1]
  profile := { type := .data, delivery := .fixedFec, name := [116] }
  callocs := some
  allocates := fun _ => true
  subscribes := fun _ => true

/-- The object of a group with one record. -/
def pingReport : TransportReport where
  event := .object ⟨1, 1⟩ { type := .data, flags := flagFecEnabled, name := [116] }
    { groupId := 1, objectId := 1, isKeyframe := false, priority := 1 } ([0, 20] ++ pingPacket)
  callocs := some
  report := some

def pingTurn : TunnelTurn where
  env :=
    { timeoutMs := 0, checkMs := fun _ => 7, startMs := fun _ => 7, callocs := some
      reports := fun _ => [pingReport], ready := fun _ _ => false, allocates := true, nowMs := 7
      firstTimeout := fun _ => -1, poll := fun _ => .expired, wakeMs := 9
      resumeMs := fun _ => 9, laterReports := fun _ => [], laterCallocs := some
      laterReady := fun _ _ => false }
  writes := [.interrupted, .written]
  writable := true
  reads := fun batch => if batch = 0 then .packet pingPacket else .blocked
  answers := fun _ => .delivered

example : (run pingStart [pingTurn]).written = [pingPacket] ∧ (run pingStart [pingTurn]).sent = 1 ∧
    (run pingStart [pingTurn]).subscribed = 1 := by
  decide +kernel

end DirectTunnel

end Qlinq
