import Qlinq.EgressOrder
import Qlinq.Scheduler

namespace Qlinq

/-! What an endpoint counts of the packets submitted to its sockets, while sockets are
opened and removed. -/

/-- The UDP and egress counters of `transport_stats_t`. -/
structure UdpStats where
  udpPacketsSent : Nat := 0
  udpBytesSent : Nat := 0
  udpWouldBlock : Nat := 0
  udpSendErrors : Nat := 0
  egressPacketsQueued : Nat := 0
  egressBytesQueued : Nat := 0
  egressPacketsDropped : Nat := 0
  egressCurrentPackets : Nat := 0
  egressCurrentBytes : Nat := 0
  egressPeakPackets : Nat := 0
  egressPeakBytes : Nat := 0
  deriving DecidableEq, Repr

namespace UdpStats

def accumulateEgressStats (stats : UdpStats) (egress : UdpEgress) (droppingPending : Bool) :
    UdpStats :=
  { stats with
    udpPacketsSent := stats.udpPacketsSent + egress.packetsSent
    udpBytesSent := stats.udpBytesSent + egress.bytesSent
    udpWouldBlock := stats.udpWouldBlock + egress.wouldBlock
    udpSendErrors := stats.udpSendErrors + egress.sendErrors
    egressPacketsQueued := stats.egressPacketsQueued + egress.packetsQueued
    egressBytesQueued := stats.egressBytesQueued + egress.bytesQueued
    egressPacketsDropped := stats.egressPacketsDropped +
      (egress.packetsDropped + if droppingPending then egress.ring.count else 0)
    egressPeakPackets := max stats.egressPeakPackets egress.peakCount
    egressPeakBytes := max stats.egressPeakBytes egress.peakBytes }

/-- What `transport_get_stats` adds for a socket that is open. -/
def addOpen (stats : UdpStats) (egress : UdpEgress) : UdpStats :=
  { stats.accumulateEgressStats egress false with
    egressCurrentPackets := stats.egressCurrentPackets + egress.ring.count
    egressCurrentBytes := stats.egressCurrentBytes + egress.bytes }

/-- The packets counted as sent, as queued now, or as dropped. -/
def covered (stats : UdpStats) : Nat :=
  stats.udpPacketsSent + stats.egressCurrentPackets + stats.egressPacketsDropped

end UdpStats

def UdpEgress.covered (egress : UdpEgress) : Nat :=
  egress.packetsSent + egress.ring.count + egress.packetsDropped

theorem UdpStats.covered_addOpen (stats : UdpStats) (egress : UdpEgress) :
    (stats.addOpen egress).covered = stats.covered + egress.covered := by
  simp only [covered, addOpen, accumulateEgressStats, UdpEgress.covered, Bool.false_eq_true, if_false]
  omega

theorem UdpStats.covered_accumulate (stats : UdpStats) (egress : UdpEgress) :
    (stats.accumulateEgressStats egress true).covered = stats.covered + egress.covered := by
  simp only [covered, accumulateEgressStats, UdpEgress.covered, if_true]
  omega

/-! One socket. -/

namespace EgressRun

/-- Every packet of the call will be sent, queued or counted as dropped. -/
def AccountsFor (run : EgressRun) : EgressCall → Prop
  | .submit destination _ datagrams _ answers =>
      run.egress.Accounts { run.socket with answers } destination datagrams
  | .flush _ => True

theorem covered_handled {egress egress' : UdpEgress} (hqueues : egress.Queues queued)
    (hhandled : egress.Handled egress' (queued ++ new) sent kept lost) :
    egress'.covered + lost = egress.covered + new.length := by
  have hbalance := hhandled.balance
  rw [List.length_append] at hbalance
  rw [UdpEgress.covered, UdpEgress.covered, hhandled.sent_eq, hhandled.queues.holds.count_eq,
    hqueues.holds.count_eq]
  omega

/-- A call leaves uncounted just the packets it does not account for. -/
theorem step_covered {run : EgressRun} (hqueues : run.egress.Queues queued) (call : EgressCall) :
    ∃ lost kept, (run.step call).egress.Queues kept ∧
      (run.step call).egress.covered + lost = run.egress.covered + call.submitted.length ∧
      (lost = 0 ↔ run.AccountsFor call) := by
  cases call with
  | submit destination fits datagrams mallocs answers =>
      obtain ⟨ok, egress', socket', first, kept, lost, hsubmit, -, -, -, hhandled, hlost⟩ :=
        UdpEgress.submit_handled hqueues { run.socket with answers } fits datagrams mallocs
      have hstep : (run.step (.submit destination fits datagrams mallocs answers)).egress =
          egress' := by
        rw [step, hsubmit]
      rw [hstep]
      exact ⟨lost, kept, hhandled.queues, covered_handled hqueues hhandled, hlost⟩
  | flush answers =>
      obtain ⟨ok, egress', socket', sent, kept, hflush, -, hhandled⟩ :=
        UdpEgress.flush_handled hqueues { run.socket with answers }
      have hstep : (run.step (.flush answers)).egress = egress' := by
        rw [step, hflush]
      have hall : run.egress.Handled egress' (queued ++ []) sent kept 0 := by rwa [List.append_nil]
      rw [hstep]
      exact ⟨0, kept, hhandled.queues, covered_handled hqueues hall, iff_of_true rfl trivial⟩

end EgressRun

/-! The endpoint. -/

structure EgressEndpoint where
  stats : UdpStats := {}
  sockets : List EgressRun := []
  submitted : Nat := 0

inductive EndpointCall
  | openSocket (maxPackets maxBytes : Nat) (errno : Errno)
  | onSocket (index : Nat) (call : EgressCall)
  | removeSocket (index : Nat)

namespace EgressEndpoint

def openSocket (t : EgressEndpoint) (maxPackets maxBytes : Nat) (errno : Errno) : EgressEndpoint :=
  match UdpEgress.init maxPackets maxBytes with
  | some egress =>
      if t.sockets.length < transportMaxPaths then
        { t with sockets := t.sockets ++ [.start egress errno] }
      else
        t
  | none => t

def onSocket (t : EgressEndpoint) (index : Nat) (call : EgressCall) : EgressEndpoint :=
  match t.sockets[index]? with
  | some run =>
      { t with
        sockets := t.sockets.set index (run.step call)
        submitted := t.submitted + call.submitted.length }
  | none => t

def removeSocket (t : EgressEndpoint) (index : Nat) : EgressEndpoint :=
  match t.sockets[index]? with
  | some run =>
      { t with
        stats := t.stats.accumulateEgressStats run.egress true
        sockets := t.sockets.eraseIdx index }
  | none => t

def step (t : EgressEndpoint) : EndpointCall → EgressEndpoint
  | .openSocket maxPackets maxBytes errno => t.openSocket maxPackets maxBytes errno
  | .onSocket index call => t.onSocket index call
  | .removeSocket index => t.removeSocket index

def getStats (t : EgressEndpoint) : UdpStats :=
  t.sockets.foldl (fun stats run => stats.addOpen run.egress) t.stats

def AccountsFor (t : EgressEndpoint) : EndpointCall → Prop
  | .onSocket index call => ∀ run, t.sockets[index]? = some run → run.AccountsFor call
  | _ => True

/-- What was submitted is sent, queued or dropped, by the endpoint's totals and by the
counters of each open socket. -/
def Conserved (t : EgressEndpoint) : Prop :=
  t.getStats.covered = t.submitted ∧
    ∀ run ∈ t.sockets, run.egress.covered = run.submitted.length

def Sound (t : EgressEndpoint) : Prop := ∀ run ∈ t.sockets, ∃ queued, run.egress.Queues queued

theorem covered_getStats (t : EgressEndpoint) :
    t.getStats.covered =
      t.stats.covered + Totals.total (fun run => run.egress.covered) t.sockets := by
  rw [getStats]
  generalize t.stats = stats
  induction t.sockets generalizing stats with
  | nil => rfl
  | cons run rest ih =>
      rw [List.foldl_cons, ih, UdpStats.covered_addOpen, Totals.total_cons, Nat.add_assoc]

theorem covered_start (hinit : UdpEgress.init maxPackets maxBytes = some egress) :
    egress.covered = 0 := by
  unfold UdpEgress.init at hinit
  split at hinit
  · cases hinit
  · cases hinit
    rfl

/-- What a call does to the endpoint: nothing, or one socket is opened, used or
removed. -/
theorem step_cases (t : EgressEndpoint) (call : EndpointCall) :
    (t.step call = t ∧ t.AccountsFor call) ∨
    (∃ egress errno, egress.Queues [] ∧ egress.covered = 0 ∧ t.AccountsFor call ∧
      t.step call = { t with sockets := t.sockets ++ [.start egress errno] }) ∨
    (∃ index run request, t.sockets[index]? = some run ∧
      (t.AccountsFor call ↔ run.AccountsFor request) ∧
      t.step call = { t with
        sockets := t.sockets.set index (run.step request)
        submitted := t.submitted + request.submitted.length }) ∨
    ∃ index run, t.sockets[index]? = some run ∧ t.AccountsFor call ∧
      t.step call = { t with
        stats := t.stats.accumulateEgressStats run.egress true
        sockets := t.sockets.eraseIdx index } := by
  cases call with
  | openSocket maxPackets maxBytes errno =>
      rw [step, openSocket]
      split
      · next egress hinit =>
        split
        · exact .inr (.inl ⟨egress, errno, (UdpEgress.queues_init hinit).1, covered_start hinit,
            trivial, rfl⟩)
        · exact .inl ⟨rfl, trivial⟩
      · exact .inl ⟨rfl, trivial⟩
  | onSocket index request =>
      rw [step, onSocket]
      split
      · next run hrun =>
        refine .inr (.inr (.inl ⟨index, run, request, hrun, ?_, rfl⟩))
        simp only [AccountsFor, hrun, Option.some.injEq, forall_eq']
      · next hnone => exact .inl ⟨rfl, fun run hrun => absurd (hnone.symm.trans hrun) (by simp)⟩
  | removeSocket index =>
      rw [step, removeSocket]
      split
      · next run hrun => exact .inr (.inr (.inr ⟨index, run, hrun, trivial, rfl⟩))
      · exact .inl ⟨rfl, trivial⟩

theorem step_sound {t : EgressEndpoint} (hsound : t.Sound) (call : EndpointCall) :
    (t.step call).Sound := by
  rcases step_cases t call with ⟨hstep, -⟩ | ⟨egress, errno, hqueues, -, -, hstep⟩ |
      ⟨index, run, request, hrun, -, hstep⟩ | ⟨index, run, -, -, hstep⟩
  · rwa [hstep]
  · rw [hstep]
    intro run hmem
    rcases List.mem_append.mp hmem with hold | hnew
    · exact hsound run hold
    · rw [List.mem_singleton.mp hnew]
      exact ⟨[], hqueues⟩
  · rw [hstep]
    intro other hmem
    rcases List.mem_or_eq_of_mem_set hmem with hold | rfl
    · exact hsound other hold
    · obtain ⟨queued, hqueues⟩ := hsound run (List.mem_of_getElem? hrun)
      obtain ⟨-, kept, hkept, -⟩ := EgressRun.step_covered hqueues request
      exact ⟨kept, hkept⟩
  · rw [hstep]
    exact fun run hmem => hsound run (List.mem_of_mem_eraseIdx hmem)

/-- The endpoint's totals lose just the packets a call does not account for. -/
theorem step_covered {t : EgressEndpoint} (hsound : t.Sound) (call : EndpointCall) :
    ∃ lost, (t.step call).getStats.covered + lost + t.submitted =
        t.getStats.covered + (t.step call).submitted ∧ (lost = 0 ↔ t.AccountsFor call) := by
  rcases step_cases t call with ⟨hstep, haccounts⟩ |
      ⟨egress, errno, -, hzero, haccounts, hstep⟩ | ⟨index, run, request, hrun, hiff, hstep⟩ |
      ⟨index, run, hrun, haccounts, hstep⟩
  · exact ⟨0, by rw [hstep]; rfl, iff_of_true rfl haccounts⟩
  · refine ⟨0, ?_, iff_of_true rfl haccounts⟩
    rw [hstep, covered_getStats, covered_getStats, Totals.total_concat]
    simp [EgressRun.start, hzero]
  · obtain ⟨queued, hqueues⟩ := hsound run (List.mem_of_getElem? hrun)
    obtain ⟨lost, -, -, hcovered, hlost⟩ := EgressRun.step_covered hqueues request
    have htotal := Totals.total_set (fun run => run.egress.covered) hrun (run.step request)
    refine ⟨lost, ?_, hlost.trans hiff.symm⟩
    simp only [hstep, covered_getStats]
    omega
  · refine ⟨0, ?_, iff_of_true rfl haccounts⟩
    have htotal := Totals.total_eraseIdx (fun run : EgressRun => run.egress.covered) hrun
    simp only [hstep, covered_getStats, UdpStats.covered_accumulate]
    omega

theorem covered_le {t : EgressEndpoint} (hsound : t.Sound) (hle : t.getStats.covered ≤ t.submitted)
    (calls : List EndpointCall) :
    let t' := Machine.run step t calls
    t'.getStats.covered ≤ t'.submitted ∧
      (t'.getStats.covered = t'.submitted ↔
        t.getStats.covered = t.submitted ∧ Machine.Along step AccountsFor t calls) := by
  induction calls generalizing t with
  | nil => exact ⟨hle, by simp [Machine.Along]⟩
  | cons call rest ih =>
      obtain ⟨lost, hbalance, hlost⟩ := step_covered hsound call
      obtain ⟨hrun, hiff⟩ := ih (step_sound hsound call) (by omega)
      refine ⟨hrun, hiff.trans ?_⟩
      rw [Machine.Along, ← hlost, ← and_assoc]
      exact and_congr_left fun _ => by omega

theorem sockets_conserved {t : EgressEndpoint} {call : EndpointCall} (hsound : t.Sound)
    (haccounts : t.AccountsFor call)
    (hconserved : ∀ run ∈ t.sockets, run.egress.covered = run.submitted.length) :
    ∀ run ∈ (t.step call).sockets, run.egress.covered = run.submitted.length := by
  rcases step_cases t call with ⟨hstep, -⟩ | ⟨egress, errno, -, hzero, -, hstep⟩ |
      ⟨index, run, request, hrun, hiff, hstep⟩ | ⟨index, run, -, -, hstep⟩
  · rwa [hstep]
  · rw [hstep]
    intro run hmem
    rcases List.mem_append.mp hmem with hold | hnew
    · exact hconserved run hold
    · rw [List.mem_singleton.mp hnew]
      exact hzero
  · rw [hstep]
    intro other hmem
    rcases List.mem_or_eq_of_mem_set hmem with hold | rfl
    · exact hconserved other hold
    · obtain ⟨queued, hqueues⟩ := hsound run (List.mem_of_getElem? hrun)
      obtain ⟨lost, -, -, hcovered, hlost⟩ := EgressRun.step_covered hqueues request
      have hnone : lost = 0 := hlost.mpr (hiff.mp haccounts)
      rw [hnone, Nat.add_zero, hconserved run (List.mem_of_getElem? hrun)] at hcovered
      rw [hcovered]
      exact (List.length_append).symm
  · rw [hstep]
    exact fun run hmem => hconserved run (List.mem_of_mem_eraseIdx hmem)

/-- Packets are conserved, at the endpoint and at each of its sockets, in just the runs
that submit no batch to be turned down by a hard error or too long to be summed. -/
theorem conserved_iff (calls : List EndpointCall) :
    (Machine.run step {} calls).Conserved ↔ Machine.Along step AccountsFor {} calls := by
  have hstart : Sound {} := fun run hmem => absurd hmem List.not_mem_nil
  obtain ⟨-, hiff⟩ := covered_le hstart (Nat.le_refl 0) calls
  constructor
  · exact fun hconserved => (hiff.mp hconserved.1).2
  · intro halong
    refine ⟨hiff.mpr ⟨rfl, halong⟩, ?_⟩
    have hstep : ∀ (t : EgressEndpoint) (call : EndpointCall),
        (t.Sound ∧ ∀ run ∈ t.sockets, run.egress.covered = run.submitted.length) →
          t.AccountsFor call → (t.step call).Sound ∧
            ∀ run ∈ (t.step call).sockets, run.egress.covered = run.submitted.length :=
      fun t call hinv haccounts => ⟨step_sound hinv.1 call,
        sockets_conserved hinv.1 haccounts hinv.2⟩
    exact (Machine.invariant_run hstep ⟨hstart, fun run hmem => absurd hmem List.not_mem_nil⟩
      halong).2

/-- A datagram for an unreachable network is submitted to an empty queue: it is not
sent, not queued, and not counted as dropped. -/
theorem not_conserved : ¬∀ calls, (Machine.run step {} calls).Conserved := by
  intro hall
  have := (hall [.openSocket 2 1500 .eagain,
    .onSocket 0 (.submit [1] (by decide) [[7]] (fun _ => true) [.failed (.other 101)])]).1
  revert this
  decide

end EgressEndpoint

end Qlinq
