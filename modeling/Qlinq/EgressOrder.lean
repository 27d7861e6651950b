import Qlinq.Egress

namespace Qlinq

namespace UdpEgress

/-! What one call does with the packets that were queued or came with it. -/

/-- Of the packets `pending`, `sent` went out and `kept` are queued now. The others
are counted as dropped, but for `lost` of them. -/
structure Handled (egress egress' : UdpEgress) (pending sent kept : List UdpPacket) (lost : Nat) :
    Prop where
  queues : egress'.Queues kept
  capacity_eq : egress'.ring.capacity = egress.ring.capacity
  maxBytes_eq : egress'.maxBytes = egress.maxBytes
  order : (sent ++ kept).Sublist pending
  sent_eq : egress'.packetsSent = egress.packetsSent + sent.length
  balance : egress'.packetsDropped + sent.length + kept.length + lost =
    egress.packetsDropped + pending.length

variable {egress : UdpEgress} {items : List UdpPacket}

theorem Queues.of_same {egress' : UdpEgress} (hqueues : egress.Queues items)
    (hring : egress'.ring = egress.ring) (hbytes : egress'.bytes = egress.bytes)
    (hmax : egress'.maxBytes = egress.maxBytes) : egress'.Queues items where
  holds := hring ▸ hqueues.holds
  bytes_eq := hbytes.trans hqueues.bytes_eq
  bytes_le := by
    rw [hbytes, hmax]
    exact hqueues.bytes_le

theorem Handled.trans {a b c : UdpEgress} (hfirst : a.Handled b pending sent kept 0)
    (hsecond : b.Handled c kept sent' kept' lost) :
    a.Handled c pending (sent ++ sent') kept' lost where
  queues := hsecond.queues
  capacity_eq := hsecond.capacity_eq.trans hfirst.capacity_eq
  maxBytes_eq := hsecond.maxBytes_eq.trans hfirst.maxBytes_eq
  order := by
    rw [List.append_assoc]
    exact (List.Sublist.append_left hsecond.order sent).trans hfirst.order
  sent_eq := by
    rw [hsecond.sent_eq, hfirst.sent_eq, List.length_append, Nat.add_assoc]
  balance := by
    have hfirst := hfirst.balance
    have hsecond := hsecond.balance
    rw [List.length_append]
    omega

theorem Handled.refl (hqueues : egress.Queues items) : egress.Handled egress items [] items 0 where
  queues := hqueues
  capacity_eq := rfl
  maxBytes_eq := rfl
  order := List.Sublist.refl items
  sent_eq := rfl
  balance := rfl

/-! ### Queueing -/

/-- The bytes of the datagrams can be summed in a `size_t`. -/
def Summable (datagrams : List Bytes) : Prop := Totals.total List.length datagrams ≤ sizeMax

instance (datagrams : List Bytes) : Decidable (Summable datagrams) :=
  inferInstanceAs (Decidable (_ ≤ _))

theorem sumLengths_isSome_iff (datagrams : List Bytes) :
    ∀ bytes ≤ sizeMax,
      (sumLengths datagrams bytes).isSome ↔ bytes + Totals.total List.length datagrams ≤ sizeMax := by
  induction datagrams with
  | nil =>
      intro bytes hbytes
      exact iff_of_true rfl hbytes
  | cons datagram rest ih =>
      intro bytes hbytes
      rw [sumLengths, Totals.total_cons, ← Nat.add_assoc]
      split
      · exact iff_of_false (by decide) (by omega)
      · exact ih _ (by omega)

theorem queueRemaining_handled (hqueues : egress.Queues items) (destination : Bytes)
    (mallocs : Nat → Bool) (datagrams : List Bytes) :
    ∃ egress' ok lost, egress.queueRemaining destination mallocs datagrams = (ok, egress') ∧
      egress.Handled egress' (items ++ datagrams.map (UdpPacket.mk destination)) []
        (if ok then items ++ datagrams.map (UdpPacket.mk destination) else items) lost ∧
      (lost = 0 ↔ Summable datagrams) := by
  have hsum := sumLengths_isSome_iff datagrams 0 (Nat.zero_le _)
  rw [Nat.zero_add] at hsum
  unfold queueRemaining
  cases hbytes : sumLengths datagrams 0 with
  | none =>
      rw [hbytes] at hsum
      have hover : ¬Summable datagrams := fun h => Bool.false_ne_true (hsum.mpr h)
      refine ⟨egress, false, datagrams.length, rfl, ⟨hqueues, rfl, rfl, ?_, rfl, ?_⟩, ?_⟩
      · exact List.sublist_append_left items _
      · simp [Nat.add_assoc]
      · refine iff_of_false (fun h => hover ?_) hover
        rw [List.length_eq_zero_iff.mp h]
        exact Nat.zero_le _
  | some bytes =>
      rw [hbytes] at hsum
      have hsummable : Summable datagrams := hsum.mp rfl
      have hdropped : ∀ egress' : UdpEgress, egress'.Queues items → egress.Alike egress' →
          egress.Handled
            { egress' with packetsDropped := egress'.packetsDropped + datagrams.length }
            (items ++ datagrams.map (UdpPacket.mk destination)) [] items 0 := by
        intro egress' hqueues' halike
        refine ⟨hqueues'.of_same rfl rfl rfl, halike.capacity_eq, halike.maxBytes_eq,
          List.sublist_append_left items _, halike.sent_eq, ?_⟩
        simp only [halike.dropped_eq, List.length_append, List.length_map, List.length_nil]
        omega
      dsimp only
      split
      · next haccept =>
        simp only [canAccept, Bool.and_eq_true, decide_eq_true_eq] at haccept
        have hcount := hqueues.holds.count_eq
        have hfits := hqueues.holds.fits
        have hle := hqueues.bytes_le
        have htotal := sumLengths_eq datagrams 0 hbytes
        have hstart : egress.Queues (items ++ []) := by rwa [List.append_nil]
        obtain ⟨egress', ok, hcopies, halike, hout⟩ := queueCopies_queues destination mallocs
          datagrams hstart (by rw [List.append_nil]; omega) (by omega)
        rw [List.length_nil] at hcopies
        rw [hcopies]
        cases ok with
        | false => exact ⟨_, false, 0, rfl, hdropped egress' hout halike, iff_of_true rfl hsummable⟩
        | true =>
            rw [if_pos rfl, List.append_nil] at hout
            refine ⟨_, true, 0, rfl, ⟨hout.of_same rfl rfl rfl, halike.capacity_eq,
              halike.maxBytes_eq, List.Sublist.refl _, halike.sent_eq, ?_⟩,
              iff_of_true rfl hsummable⟩
            simp [halike.dropped_eq]
      · exact ⟨_, false, 0, rfl, hdropped egress hqueues (.refl egress),
          iff_of_true rfl hsummable⟩

/-! ### Submitting -/

/-- Every datagram of the submission will be sent, queued or counted as dropped:
a batch offered to the kernel at once is not turned down by a hard error, and what
is then to be queued can be summed. -/
def Accounts (egress : UdpEgress) (socket : UdpSocket) (destination : Bytes)
    (datagrams : List Bytes) : Prop :=
  if egress.ring.count = 0 then
    match socket.sendBatch destination datagrams with
    | (none, socket) => socket.errno.retries = true ∧ Summable datagrams
    | (some first, _) => Summable (datagrams.drop first)
  else
    Summable datagrams

theorem summable_nil : Summable [] :=
  Nat.zero_le _

/-- Handling what is left of a batch, after its front went out. -/
theorem Handled.after {a b c : UdpEgress} {sent : List UdpPacket}
    (hrest : b.Handled c rest [] kept lost)
    (hsent : b.packetsSent = a.packetsSent + sent.length)
    (hdropped : b.packetsDropped = a.packetsDropped) (hring : b.ring = a.ring)
    (hmax : b.maxBytes = a.maxBytes) :
    a.Handled c (sent ++ rest) sent kept lost where
  queues := hrest.queues
  capacity_eq := hrest.capacity_eq.trans (congrArg _ hring)
  maxBytes_eq := hrest.maxBytes_eq.trans hmax
  order := List.Sublist.append_left hrest.order sent
  sent_eq := hrest.sent_eq.trans hsent
  balance := by
    have := hrest.balance
    rw [List.length_nil, hdropped] at this
    rw [List.length_append]
    omega

theorem submit_handled (hqueues : egress.Queues items) (socket : UdpSocket)
    (hdestination : destination.length ≤ sockaddrStorageSize) (datagrams : List Bytes)
    (mallocs : Nat → Bool) :
    ∃ ok egress' socket' first kept lost,
      egress.submit socket destination datagrams mallocs = (ok, egress', socket') ∧
      first ≤ datagrams.length ∧
      socket'.wire = socket.wire ++ (datagrams.take first).map (UdpPacket.mk destination) ∧
      (kept = items ++ (datagrams.drop first).map (UdpPacket.mk destination) ∨ kept = items) ∧
      egress.Handled egress' (items ++ datagrams.map (UdpPacket.mk destination))
        ((datagrams.take first).map (UdpPacket.mk destination)) kept lost ∧
      (lost = 0 ↔ egress.Accounts socket destination datagrams) := by
  have hcount := hqueues.holds.count_eq
  unfold submit Accounts
  rw [if_neg (Nat.not_lt.mpr hdestination)]
  split
  · next hnone =>
    subst hnone
    refine ⟨true, egress, socket, 0, items, 0, rfl, Nat.le_refl 0, by simp, .inr rfl, ?_, ?_⟩
    · simpa using Handled.refl hqueues
    · refine iff_of_true rfl ?_
      split
      · exact summable_nil
      · exact summable_nil
  split
  · next hempty =>
    have hitems : items = [] := List.length_eq_zero_iff.mp (hcount.symm.trans hempty)
    subst hitems
    rcases hbatch : socket.sendBatch destination datagrams with ⟨result, socket₁⟩
    obtain ⟨hle, hwire⟩ := UdpSocket.sendBatch_wire hbatch
    cases result with
    | none =>
        rw [Option.getD_none] at hwire
        dsimp only
        split
        · next hretries =>
          have hblocked : Queues { egress with sendErrors := egress.sendErrors + 1 }.blocked [] :=
            hqueues.of_same rfl rfl rfl
          obtain ⟨egress', ok, lost, hremaining, hhandled, hlost⟩ :=
            queueRemaining_handled hblocked destination mallocs datagrams
          rw [List.nil_append] at hhandled
          rw [hremaining]
          refine ⟨ok, egress', socket₁, 0, _, lost, rfl, Nat.zero_le _, hwire, ?_,
            hhandled.after rfl rfl rfl rfl, hlost.trans (by simp [hretries])⟩
          cases ok with
          | false => exact .inr rfl
          | true => exact .inl rfl
        · next hhard =>
          refine ⟨false, _, socket₁, 0, [], datagrams.length, rfl, Nat.zero_le _, hwire,
            .inr rfl, ⟨hqueues.of_same rfl rfl rfl, rfl, rfl, List.nil_sublist _, rfl, ?_⟩, ?_⟩
          · simp
          · refine iff_of_false (fun h => ?_) (fun h => hhard h.1)
            exact absurd (List.length_eq_zero_iff.mp h) ‹_›
    | some first =>
        rw [Option.getD_some] at hle hwire
        have hsplit : ([] : List UdpPacket) ++ datagrams.map (UdpPacket.mk destination) =
            (datagrams.take first).map (UdpPacket.mk destination) ++
              (datagrams.drop first).map (UdpPacket.mk destination) := by
          rw [List.nil_append, ← List.map_append, List.take_append_drop]
        dsimp only
        rw [hsplit]
        split
        · have hblocked : (egress.countSent (datagrams.take first)).blocked.Queues [] :=
            hqueues.of_same rfl rfl rfl
          obtain ⟨egress', ok, lost, hremaining, hhandled, hlost⟩ :=
            queueRemaining_handled hblocked destination mallocs (datagrams.drop first)
          rw [List.nil_append] at hhandled
          rw [hremaining]
          refine ⟨ok, egress', socket₁, first, _, lost, rfl, hle, hwire, ?_,
            hhandled.after ?_ rfl rfl rfl, hlost⟩
          · cases ok with
            | false => exact .inr rfl
            | true => exact .inl rfl
          · rw [List.length_map]
            rfl
        · have hall : datagrams.drop first = [] := List.drop_eq_nil_of_le (by omega)
          rw [hall]
          refine ⟨true, _, socket₁, first, [], 0, rfl, hle, hwire, .inr rfl, ?_,
            iff_of_true rfl summable_nil⟩
          have hcounted : (egress.countSent (datagrams.take first)).Queues [] :=
            hqueues.of_same rfl rfl rfl
          refine (Handled.refl hcounted).after ?_ rfl rfl rfl
          rw [List.length_map]
          rfl
  · obtain ⟨egress', ok, lost, hremaining, hhandled, hlost⟩ :=
      queueRemaining_handled hqueues destination mallocs datagrams
    rw [hremaining]
    refine ⟨ok, egress', socket, 0, _, lost, rfl, Nat.zero_le _, by simp, ?_, hhandled, hlost⟩
    cases ok with
    | false => exact .inr rfl
    | true => exact .inl rfl

/-! ### Flushing -/

/-- The datagrams a flush offers at once are the front of the queue. -/
theorem compatible_prefix (hqueues : egress.Queues items) (destination : Bytes) :
    ∀ left offset, offset + left ≤ items.length →
      (egress.compatible destination left offset).map (UdpPacket.mk destination) <+:
        items.drop offset := by
  intro left
  induction left with
  | zero =>
      intro offset _
      exact List.nil_prefix
  | succ left ih =>
      intro offset hleft
      have hoffset : offset < items.length := by omega
      have hpeek := hqueues.holds.peek_eq (hqueues.holds.count_eq ▸ hoffset)
      rw [List.getElem?_eq_getElem hoffset] at hpeek
      rw [compatible, hpeek, List.drop_eq_getElem_cons hoffset]
      dsimp only
      split
      · next hsame =>
        rw [List.map_cons, ← hsame]
        exact List.cons_prefix_cons.mpr ⟨rfl, hsame ▸ ih (offset + 1) (by omega)⟩
      · exact List.nil_prefix

theorem releaseSent_handled (sent : Nat) {egress : UdpEgress} {items : List UdpPacket}
    (hqueues : egress.Queues items) (hsent : sent ≤ items.length) :
    egress.Handled (releaseSent sent egress) items (items.take sent) (items.drop sent) 0 := by
  induction sent generalizing egress items with
  | zero => exact .refl hqueues
  | succ sent ih =>
      cases items with
      | nil => cases hsent
      | cons packet rest =>
          have hreleased : Queues { egress.removeHead with
              packetsSent := egress.packetsSent + 1
              bytesSent := egress.bytesSent + egress.packetSize 0 } rest :=
            hqueues.removeHead.of_same rfl rfl rfl
          have hone : egress.Handled { egress.removeHead with
              packetsSent := egress.packetsSent + 1
              bytesSent := egress.bytesSent + egress.packetSize 0 } (packet :: rest) [packet] rest 0 := by
            refine ⟨hreleased, RingBuffer.capacity_popFront _, rfl, List.Sublist.refl _, rfl, ?_⟩
            simp only [removeHead, List.length_nil, List.length_cons]
            omega
          exact hone.trans (ih hreleased (Nat.le_of_succ_le_succ hsent))

theorem dropHead_handled (hqueues : egress.Queues (packet :: items)) :
    egress.Handled egress.dropHead (packet :: items) [] items 0 where
  queues := hqueues.removeHead.of_same rfl rfl rfl
  capacity_eq := RingBuffer.capacity_popFront _
  maxBytes_eq := rfl
  order := List.sublist_cons_self packet items
  sent_eq := rfl
  balance := by
    simp only [dropHead, removeHead, List.length_nil, List.length_cons]
    omega

theorem Handled.blocked {a b : UdpEgress} (hhandled : a.Handled b pending sent kept lost) :
    a.Handled b.blocked pending sent kept lost :=
  ⟨hhandled.queues.of_same rfl rfl rfl, hhandled.capacity_eq, hhandled.maxBytes_eq,
    hhandled.order, hhandled.sent_eq, hhandled.balance⟩

theorem flushLoop_handled (turns : Nat) :
    ∀ (budget : Nat) (success : Bool) {egress : UdpEgress} (socket : UdpSocket)
      {items : List UdpPacket}, egress.Queues items →
      ∃ ok egress' socket' sent kept,
        flushLoop turns budget success egress socket = (ok, egress', socket') ∧
        socket'.wire = socket.wire ++ sent ∧ egress.Handled egress' items sent kept 0 := by
  induction turns with
  | zero =>
      intro budget success egress socket items hqueues
      exact ⟨success, egress, socket, [], items, rfl, by simp, .refl hqueues⟩
  | succ turns ih =>
      intro budget success egress socket items hqueues
      have hcount := hqueues.holds.count_eq
      unfold flushLoop
      split
      · exact ⟨success, egress, socket, [], items, rfl, by simp, .refl hqueues⟩
      next hmore =>
      obtain ⟨first, rest, rfl⟩ : ∃ first rest, items = first :: rest := by
        cases items with
        | nil => exact absurd (.inl hcount) hmore
        | cons first rest => exact ⟨first, rest, rfl⟩
      have hhead : egress.ring.peek 0 = some first := by
        rw [hqueues.holds.peek_eq (by rw [hcount]; exact Nat.succ_pos _)]
        rfl
      rw [hhead]
      dsimp only
      have hfront := compatible_prefix hqueues first.destination (min egress.ring.count budget) 0
        (by rw [Nat.zero_add, hcount]; exact Nat.min_le_left _ _)
      rw [List.drop_zero] at hfront
      generalize egress.compatible first.destination (min egress.ring.count budget) 0 =
        datagrams at hfront ⊢
      rcases hbatch : socket.sendBatch first.destination datagrams with ⟨result, socket₁⟩
      obtain ⟨hle, hwire⟩ := UdpSocket.sendBatch_wire hbatch
      match result with
      | none =>
          rw [Option.getD_none, List.take_zero, List.map_nil, List.append_nil] at hwire
          dsimp only
          split
          · exact ⟨success, egress.blocked, socket₁, [], _, rfl, by simpa using hwire,
              (Handled.refl hqueues).blocked⟩
          · have hdropped := dropHead_handled hqueues
            obtain ⟨ok, egress', socket', sent, kept, hloop, hout, hhandled⟩ :=
              ih (budget - 1) false socket₁ hdropped.queues
            exact ⟨ok, egress', socket', sent, kept, hloop, by rw [hout, hwire],
              hdropped.trans hhandled⟩
      | some 0 =>
          rw [Option.getD_some, List.take_zero, List.map_nil, List.append_nil] at hwire
          exact ⟨success, egress.blocked, socket₁, [], _, rfl, by simpa using hwire,
            (Handled.refl hqueues).blocked⟩
      | some (sent + 1) =>
          rw [Option.getD_some] at hle hwire
          have hlength := hfront.length_le
          rw [List.length_map] at hlength
          have hreleased := releaseSent_handled (sent + 1) hqueues (by omega)
          have hsent : (first :: rest).take (sent + 1) =
              (datagrams.take (sent + 1)).map (UdpPacket.mk first.destination) := by
            rw [List.map_take]
            refine (List.IsPrefix.eq_of_length ?_ ?_).symm
            · exact List.IsPrefix.take hfront (sent + 1)
            · rw [List.length_take, List.length_take, List.length_map]
              omega
          rw [← hsent] at hwire
          dsimp only
          split
          · exact ⟨success, _, socket₁, _, _, rfl, hwire, hreleased.blocked⟩
          · obtain ⟨ok, egress', socket', more, kept, hloop, hout, hhandled⟩ :=
              ih (budget - (sent + 1)) success socket₁ hreleased.queues
            refine ⟨ok, egress', socket', _, kept, hloop, ?_, hreleased.trans hhandled⟩
            rw [hout, hwire, List.append_assoc]

theorem flush_handled (hqueues : egress.Queues items) (socket : UdpSocket) :
    ∃ ok egress' socket' sent kept, egress.flush socket = (ok, egress', socket') ∧
      socket'.wire = socket.wire ++ sent ∧ egress.Handled egress' items sent kept 0 :=
  flushLoop_handled _ _ _ socket hqueues

end UdpEgress

/-! ### One socket over a run of calls -/

/-- A call with a destination that fits a `sockaddr_storage`, and the kernel's answers
to it. -/
inductive EgressCall
  | submit (destination : Bytes) (fits : destination.length ≤ sockaddrStorageSize)
      (datagrams : List Bytes) (mallocs : Nat → Bool) (answers : List SendOutcome)
  | flush (answers : List SendOutcome)

def EgressCall.submitted : EgressCall → List UdpPacket
  | submit destination _ datagrams _ _ => datagrams.map (UdpPacket.mk destination)
  | flush _ => []

/-- A socket with its queue, and all that was ever submitted to it. -/
structure EgressRun where
  egress : UdpEgress
  socket : UdpSocket
  submitted : List UdpPacket

namespace EgressRun

def start (egress : UdpEgress) (errno : Errno) : EgressRun where
  egress
  socket := { answers := [], errno, wire := [] }
  submitted := []

def step (run : EgressRun) (call : EgressCall) : EgressRun :=
  let (egress, socket) := match call with
    | .submit destination _ datagrams mallocs answers =>
        (run.egress.submit { run.socket with answers } destination datagrams mallocs).2
    | .flush answers => (run.egress.flush { run.socket with answers }).2
  { egress, socket, submitted := run.submitted ++ call.submitted }

/-- What went out and then what is queued, in the order it was submitted. -/
structure Ordered (maxPackets maxBytes : Nat) (run : EgressRun) (queued : List UdpPacket) :
    Prop where
  queues : run.egress.Queues queued
  capacity_eq : run.egress.ring.capacity = maxPackets
  maxBytes_eq : run.egress.maxBytes = maxBytes
  order : (run.socket.wire ++ queued).Sublist run.submitted

theorem Ordered.handled {maxPackets maxBytes : Nat} {run run' : EgressRun}
    (hordered : Ordered maxPackets maxBytes run queued)
    (hhandled : run.egress.Handled run'.egress (queued ++ new) sent kept lost)
    (hwire : run'.socket.wire = run.socket.wire ++ sent)
    (hsubmitted : run'.submitted = run.submitted ++ new) :
    Ordered maxPackets maxBytes run' kept where
  queues := hhandled.queues
  capacity_eq := hhandled.capacity_eq.trans hordered.capacity_eq
  maxBytes_eq := hhandled.maxBytes_eq.trans hordered.maxBytes_eq
  order := by
    rw [hwire, hsubmitted, List.append_assoc]
    refine (List.Sublist.append_left hhandled.order _).trans ?_
    rw [← List.append_assoc]
    exact List.Sublist.append_right hordered.order new

theorem step_submit_ordered {run : EgressRun} (hordered : Ordered maxPackets maxBytes run queued)
    (destination : Bytes) (fits : destination.length ≤ sockaddrStorageSize)
    (datagrams : List Bytes) (mallocs : Nat → Bool) (answers : List SendOutcome) :
    ∃ first kept, first ≤ datagrams.length ∧
      (run.step (.submit destination fits datagrams mallocs answers)).socket.wire =
        run.socket.wire ++ (datagrams.take first).map (UdpPacket.mk destination) ∧
      (kept = queued ++ (datagrams.drop first).map (UdpPacket.mk destination) ∨ kept = queued) ∧
      Ordered maxPackets maxBytes (run.step (.submit destination fits datagrams mallocs answers))
        kept := by
  obtain ⟨ok, egress', socket', first, kept, lost, hsubmit, hle, hwire, hkept, hhandled, -⟩ :=
    UdpEgress.submit_handled hordered.queues { run.socket with answers } fits datagrams mallocs
  have hstep : run.step (.submit destination fits datagrams mallocs answers) =
      ⟨egress', socket', run.submitted ++ datagrams.map (UdpPacket.mk destination)⟩ := by
    rw [step, hsubmit]
    rfl
  rw [hstep]
  exact ⟨first, kept, hle, hwire, hkept, hordered.handled hhandled hwire rfl⟩

theorem step_flush_ordered {run : EgressRun} (hordered : Ordered maxPackets maxBytes run queued)
    (answers : List SendOutcome) :
    ∃ kept, Ordered maxPackets maxBytes (run.step (.flush answers)) kept := by
  obtain ⟨ok, egress', socket', sent, kept, hflush, hwire, hhandled⟩ :=
    UdpEgress.flush_handled hordered.queues { run.socket with answers }
  have hstep : run.step (.flush answers) = ⟨egress', socket', run.submitted ++ []⟩ := by
    rw [step, hflush]
    rfl
  have hall : run.egress.Handled egress' (queued ++ []) sent kept 0 := by rwa [List.append_nil]
  rw [hstep]
  exact ⟨kept, hordered.handled hall hwire rfl⟩

theorem run_ordered {egress : UdpEgress} {maxPackets maxBytes : Nat}
    (hinit : UdpEgress.init maxPackets maxBytes = some egress) (errno : Errno)
    (calls : List EgressCall) :
    ∃ queued, Ordered maxPackets maxBytes (Machine.run step (start egress errno) calls) queued := by
  obtain ⟨hqueues, hcapacity, hmax⟩ := UdpEgress.queues_init hinit
  have hstep : ∀ (run : EgressRun) (call : EgressCall),
      (∃ queued, Ordered maxPackets maxBytes run queued) → True →
        ∃ queued, Ordered maxPackets maxBytes (run.step call) queued := by
    intro run call ⟨queued, hordered⟩ _
    cases call with
    | submit destination fits datagrams mallocs answers =>
        obtain ⟨first, kept, -, -, -, hkept⟩ :=
          step_submit_ordered hordered destination fits datagrams mallocs answers
        exact ⟨kept, hkept⟩
    | flush answers => exact step_flush_ordered hordered answers
  exact Machine.invariant_run hstep ⟨[], hqueues, hcapacity, hmax, List.Sublist.refl []⟩
    (Machine.along_true _ calls)

/-- In every state of every run the packets on the wire and then those in the ring are
some of the submitted ones, in their order. The ring holds just as many packets and
bytes as it counts, within its caps, and what a submission could not send is queued
whole or not at all. -/
theorem egress_fifo {egress : UdpEgress} {maxPackets maxBytes : Nat}
    (hinit : UdpEgress.init maxPackets maxBytes = some egress) (errno : Errno)
    (calls : List EgressCall) :
    ∃ queued : List UdpPacket,
      let run := Machine.run step (start egress errno) calls
      run.egress.ring.Holds queued ∧
      (run.socket.wire ++ queued).Sublist run.submitted ∧
      (run.submitted.Nodup → (run.socket.wire ++ queued).Nodup) ∧
      (SlotTable.occupied run.egress.ring.slots).length = run.egress.ring.count ∧
      UdpEgress.packetBytes (SlotTable.occupied run.egress.ring.slots) = run.egress.bytes ∧
      run.egress.ring.count ≤ maxPackets ∧ run.egress.bytes ≤ maxBytes ∧
      ∀ destination fits datagrams mallocs answers,
        let run' := run.step (.submit destination fits datagrams mallocs answers)
        ∃ first ≤ datagrams.length,
          run'.socket.wire =
            run.socket.wire ++ (datagrams.take first).map (UdpPacket.mk destination) ∧
          (run'.egress.ring.Holds
              (queued ++ (datagrams.drop first).map (UdpPacket.mk destination)) ∨
            run'.egress.ring.Holds queued) := by
  obtain ⟨queued, hordered⟩ := run_ordered hinit errno calls
  have hholds := hordered.queues.holds
  have hperm := hholds.occupied_perm
  refine ⟨queued, hholds, hordered.order, hordered.order.nodup, ?_, ?_, ?_, ?_, ?_⟩
  · rw [hperm.length_eq, hholds.count_eq]
  · rw [hordered.queues.bytes_eq]
    exact (hperm.map _).sum_eq
  · rw [hholds.count_eq, ← hordered.capacity_eq]
    exact hholds.fits
  · exact hordered.maxBytes_eq ▸ hordered.queues.bytes_le
  · intro destination fits datagrams mallocs answers
    obtain ⟨first, kept, hle, hwire, hkept, hnext⟩ :=
      step_submit_ordered hordered destination fits datagrams mallocs answers
    refine ⟨first, hle, hwire, ?_⟩
    rcases hkept with rfl | rfl
    · exact .inl hnext.queues.holds
    · exact .inr hnext.queues.holds

/-- Of two datagrams the kernel takes one; the other waits in a ring of two slots. -/
theorem egress_fifo_partial_send :
    ∃ queued : List UdpPacket,
      let run := Machine.run step (start { ring := .empty 2, maxBytes := 1500 } .eagain)
        [.submit [1] (by decide) [[7], [8]] (fun _ => true) [.failed .eagain, .sent 1]]
      run.egress.ring.Holds queued ∧ run.socket.wire = [⟨[1], [7]⟩] ∧
        run.egress.ring.count = 1 ∧ (run.socket.wire ++ queued).Sublist run.submitted := by
  have hinit : UdpEgress.init 2 1500 = some { ring := .empty 2, maxBytes := 1500 } := rfl
  obtain ⟨queued, hholds, horder, -⟩ := egress_fifo hinit .eagain
    [.submit [1] (by decide) [[7], [8]] (fun _ => true) [.failed .eagain, .sent 1]]
  exact ⟨queued, hholds, by decide, by decide, horder⟩

end EgressRun

end Qlinq
