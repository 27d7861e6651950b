import Mathlib.Algebra.Order.Floor.Div
import Mathlib.Tactic.MkIffOfInductiveProp
import Qlinq.Lib.RecentRing
import Qlinq.Pacing
import Qlinq.Paths

namespace Qlinq

/-! What is estimated of a path from the counters of the QUIC stack: its rate, its loss and
its queue, and the rate at which its windows were acknowledged. -/

/-- A socket address; a family that is neither `AF_INET` nor `AF_INET6` is `none`. -/
structure QuicEndpoint where
  addr : Option SockAddr := none
  scopeId : UInt32 := 0
  deriving DecidableEq, Repr

/-- `sockaddr_endpoint_equal`. -/
def QuicEndpoint.equal (a b : QuicEndpoint) : Bool :=
  match a.addr, b.addr with
  | some (.inet host port), some (.inet host' port') => port = port' ∧ host = host'
  | some (.inet6 host port), some (.inet6 host' port') =>
      port = port' ∧ a.scopeId = b.scopeId ∧ host = host'
  | _, _ => false

/-- `quicly_path_stats_t`, as far as it is read. -/
structure QuicPathStats where
  rttSmoothed : UInt32 := 0
  cwnd : UInt32 := 0
  bytesInFlight : UInt64 := 0
  sent : UInt64 := 0
  lost : UInt64 := 0
  acked : UInt64 := 0
  bytesAcked : UInt64 := 0
  localEndpoint : QuicEndpoint := {}
  remoteEndpoint : QuicEndpoint := {}
  deriving DecidableEq, Repr

namespace QuicPathStats

def rttMs (stats : QuicPathStats) : Nat := stats.rttSmoothed.toNat

end QuicPathStats

/-- `path_t`, as an estimate fills it in. -/
structure PathSample where
  b : Fixed
  l : Fixed
  p : Fixed
  q : Nat := 0
  deriving DecidableEq, Repr

namespace PathSample

variable (pathflow : Pathflow) (safeWhole : Nat)

def estimateRate (stats : QuicPathStats) (symbolSize : Nat) : Fixed :=
  if 0 < stats.rttMs ∧ 0 < stats.cwnd.toNat ∧ 0 < symbolSize then
    let rate := stats.cwnd.toNat * 1000 * pathflow.one / (symbolSize * stats.rttMs : Nat)
    let ceiling := pathflow.ofNat safeWhole
    if rate > ceiling then ceiling else if rate > 0 then rate else 1
  else
    pathflow.ofNat 100

def estimateLoss (stats : QuicPathStats) : Fixed :=
  if 0 < stats.sent.toNat then
    let lost := if stats.lost.toNat < stats.sent.toNat then stats.lost.toNat else stats.sent.toNat
    lost * pathflow.one / stats.sent.toNat
  else
    pathflow.defaultLoss

def egressSymbols (egressBytes symbolSize : Nat) : Nat :=
  if symbolSize = 0 then
    0
  else
    egressBytes / symbolSize + if egressBytes % symbolSize ≠ 0 then 1 else 0

def estimateQueue (queuedDatagrams egressBytes symbolSize : Nat) : Nat :=
  let q := if queuedDatagrams > safeWhole then safeWhole else queuedDatagrams
  let symbols := egressSymbols egressBytes symbolSize
  q + if symbols > safeWhole - q then safeWhole - q else symbols

/-- `transport_path_estimate`; `safeWhole` is `FP_SAFE_WHOLE`. -/
def estimate (stats : Option QuicPathStats) (queuedDatagrams egressBytes symbolSize : Nat)
    (relativeOwd : Fixed) : PathSample :=
  let sample : PathSample :=
    match stats with
    | none => { b := pathflow.ofNat 100, l := pathflow.defaultLatency, p := pathflow.defaultLoss }
    | some stats =>
        { b := estimateRate pathflow safeWhole stats symbolSize
          l := if 0 < stats.rttMs then pathflow.ofNat stats.rttMs / 2000
            else pathflow.defaultLatency
          p := estimateLoss pathflow stats }
  { sample with
    l := if relativeOwd > 0 then pathflow.add sample.l relativeOwd else sample.l
    q := estimateQueue safeWhole queuedDatagrams egressBytes symbolSize }

end PathSample

/-- One call to measure a path. -/
structure PathCall where
  stats : QuicPathStats
  quicPath : Nat
  queuedDatagrams : Nat
  nowMs : Nat

namespace PathCall

def busy (call : PathCall) : Bool :=
  call.queuedDatagrams ≠ 0 ∨
    (call.stats.cwnd ≠ 0 ∧ call.stats.bytesInFlight.toNat ≥ call.stats.cwnd.toNat / 2)

def windowMs (call : PathCall) : Nat :=
  let window := call.stats.rttMs * 2
  let window := if window < 100 then 100 else window
  if window > 1000 then 1000 else window

end PathCall

/-- `a - b` of two `uint64_t`; `none` is a difference below zero. -/
def uint64Diff (a b : Nat) : Option Nat := if b ≤ a then some (a - b) else none

/-- A division; `none` is one by zero. -/
def wideDiv (a b : Nat) : Option Nat := if b = 0 then none else some (a / b)

/-- `transport_path_measurement_t`. -/
structure MeasuredPath extends PathMeasurement where
  baseline : QuicPathStats := {}
  deriving DecidableEq, Repr

namespace MeasuredPath

def restarts (m : MeasuredPath) (call : PathCall) : Bool :=
  !m.initialized ∨ m.quicPath ≠ call.quicPath ∨ call.nowMs < m.startedMs ∨
    call.stats.acked < m.baseline.acked ∨ call.stats.bytesAcked < m.baseline.bytesAcked ∨
    call.stats.sent < m.baseline.sent ∨
    !call.stats.localEndpoint.equal m.baseline.localEndpoint ∨
    !call.stats.remoteEndpoint.equal m.baseline.remoteEndpoint

def restarted (call : PathCall) : MeasuredPath where
  baseline := call.stats
  quicPath := call.quicPath
  startedMs := call.nowMs
  minimumRtt := call.stats.rttMs
  busy := call.busy
  initialized := true

/-- Every call in a window leaves a trace in its least RTT and its activity. -/
def touch (m : MeasuredPath) (call : PathCall) : MeasuredPath :=
  { m with
    minimumRtt :=
      if call.stats.rttMs ≠ 0 ∧ (m.minimumRtt = 0 ∨ call.stats.rttMs < m.minimumRtt) then
        call.stats.rttMs
      else
        m.minimumRtt
    busy := m.busy && call.busy }

/-- Records the window that `call` closes, and opens the next. -/
def record (m : MeasuredPath) (call : PathCall) (delivered observed : Nat) : MeasuredPath :=
  { m with
    probeRates := m.probeRates.set m.probeCursor observed
    probeTimes := m.probeTimes.set m.probeCursor call.nowMs
    probeCursor := (m.probeCursor + 1) % 4
    deliveredBytesPerSecond :=
      if m.busy ∧ delivered ≠ 0 then observed else m.deliveredBytesPerSecond
    rateAtMs := if m.busy ∧ delivered ≠ 0 then call.nowMs else m.rateAtMs
    baseline := call.stats
    startedMs := call.nowMs
    busy := call.busy }

/-- `transport_path_measure`, for a call without statistics when `call` is `none`. It answers
whether the measurement starts over; the whole result is `none` when a subtraction or a
division is undefined. -/
def measure (m : MeasuredPath) : Option PathCall → Option (MeasuredPath × Bool)
  | none => some (m, false)
  | some call =>
      if m.restarts call then
        some (restarted call, true)
      else
        let m := m.touch call
        do
          let elapsed ← uint64Diff call.nowMs m.startedMs
          if elapsed < call.windowMs then
            return (m, false)
          let delivered ← uint64Diff call.stats.bytesAcked.toNat m.baseline.bytesAcked.toNat
          let rate ← wideDiv (delivered * 1000) elapsed
          let observed := if rate > uint64Max then uint64Max else rate
          return (m.record call delivered observed, false)

def run (m : MeasuredPath) (calls : List (Option PathCall)) : Option MeasuredPath :=
  calls.foldlM (fun m call => (m.measure call).map Prod.fst) m

def probePeak (m : MeasuredPath) (lifetime nowMs : Nat) : Nat :=
  (m.probeTimes.zip m.probeRates).foldl
    (fun peak (time, rate) =>
      if nowMs ≥ time ∧ nowMs - time ≤ lifetime ∧ rate > peak then rate else peak)
    0

/-- `transport_path_probe_cap`; a missing measurement or missing statistics are `none`. -/
def probeCap (pathflow : Pathflow) (safeWhole : Nat) (m : Option MeasuredPath)
    (stats : Option QuicPathStats) (symbolSize nowMs : Nat) : Fixed :=
  let ceiling := pathflow.ofNat safeWhole
  match m, stats with
  | some m, some stats =>
      if !m.initialized ∨ symbolSize = 0 ∨ nowMs < m.startedMs then
        ceiling
      else
        let lifetime := if stats.rttMs * 8 < 500 then 500 else stats.rttMs * 8
        let peak := m.probePeak lifetime nowMs
        if peak = 0 then
          ceiling
        else
          let slack := if m.minimumRtt / 8 < 5 then 5 else m.minimumRtt / 8
          if !m.busy ∨ m.minimumRtt = 0 ∨ stats.rttMs ≤ m.minimumRtt + slack then
            ceiling
          else
            let cap := peak * pathflow.one / (symbolSize + 80 : Nat)
            if cap > ceiling then ceiling else if cap > 0 then cap else 1
  | _, _ => ceiling

end MeasuredPath

/-- What is known of the range of the fixed-point numbers. -/
structure Pathflow.Range (pathflow : Pathflow) (safeWhole : Nat) : Prop
    extends pathflow.FixedPoint where
  hundred_le : 100 ≤ safeWhole
  defaultLoss_nonneg : 0 ≤ pathflow.defaultLoss
  defaultLoss_le : pathflow.defaultLoss ≤ pathflow.one

variable {pathflow : Pathflow} {safeWhole : Nat}

theorem Pathflow.FixedPoint.one_le_ofNat (hfixed : pathflow.FixedPoint) (hpos : 0 < n) :
    1 ≤ pathflow.ofNat n := by
  rw [hfixed.ofNat_eq]
  exact Int.mul_pos (Int.natCast_pos.mpr hpos) hfixed.one_pos

/-- A rate that is kept between one unit and the ceiling. -/
theorem clamped_bounds {rate ceiling : Fixed} (hceiling : 1 ≤ ceiling) :
    1 ≤ (if rate > ceiling then ceiling else if rate > 0 then rate else 1) ∧
      (if rate > ceiling then ceiling else if rate > 0 then rate else 1) ≤ ceiling := by
  simp only [Fixed] at *
  split
  · exact ⟨hceiling, Int.le_refl _⟩
  · split <;> omega

namespace PathSample

/-- What holds of every estimate; a rate is at least one unit of the fixed-point format. -/
structure WellDefined (pathflow : Pathflow) (safeWhole queuedDatagrams egressBytes symbolSize : Nat)
    (sample : PathSample) : Prop where
  rate_pos : 1 ≤ sample.b
  rate_le : sample.b ≤ pathflow.ofNat safeWhole
  loss_nonneg : 0 ≤ sample.p
  loss_le : sample.p ≤ pathflow.one
  queue_eq : sample.q = min safeWhole (queuedDatagrams + egressBytes ⌈/⌉ symbolSize)

theorem estimateRate_bounds (hrange : pathflow.Range safeWhole) (stats : QuicPathStats)
    (symbolSize : Nat) :
    1 ≤ estimateRate pathflow safeWhole stats symbolSize ∧
      estimateRate pathflow safeWhole stats symbolSize ≤ pathflow.ofNat safeWhole := by
  have hhundred := hrange.hundred_le
  unfold estimateRate
  split
  · exact clamped_bounds (hrange.one_le_ofNat (by omega))
  · exact ⟨hrange.one_le_ofNat (by decide),
      PacedBudget.ofNat_mono hrange.toFixedPoint hhundred⟩

theorem estimateLoss_bounds (hrange : pathflow.Range safeWhole) (stats : QuicPathStats) :
    0 ≤ estimateLoss pathflow stats ∧ estimateLoss pathflow stats ≤ pathflow.one := by
  have hone := Int.le_of_lt hrange.one_pos
  unfold estimateLoss
  split
  · next hsent =>
    extract_lets lost
    have hlost : lost ≤ stats.sent.toNat := by
      simp only [lost]
      split <;> omega
    have hsent' : (0 : Int) < stats.sent.toNat := Int.natCast_pos.mpr hsent
    constructor
    · exact Int.ediv_nonneg (Int.mul_nonneg (Int.natCast_nonneg _) hone) (Int.le_of_lt hsent')
    · apply Int.ediv_le_of_le_mul hsent'
      rw [Int.mul_comm pathflow.one]
      exact Int.mul_le_mul_of_nonneg_right (Int.ofNat_le.mpr hlost) hone
  · exact ⟨hrange.defaultLoss_nonneg, hrange.defaultLoss_le⟩

theorem egressSymbols_eq (egressBytes symbolSize : Nat) :
    egressSymbols egressBytes symbolSize = egressBytes ⌈/⌉ symbolSize := by
  unfold egressSymbols
  split
  · next hzero => rw [hzero, ceilDiv_zero]
  · next hsize =>
    rw [Nat.ceilDiv_eq_add_pred_div]
    have hpos := Nat.pos_of_ne_zero hsize
    have hsplit := Nat.div_add_mod egressBytes symbolSize
    have hrest := Nat.mod_lt egressBytes hpos
    rw [Nat.mul_comm] at hsplit
    symm
    apply Nat.div_eq_of_lt_le
    · split <;> simp only [Nat.add_mul] <;> omega
    · split <;> simp only [Nat.add_mul] <;> omega

theorem estimateQueue_eq (safeWhole queuedDatagrams egressBytes symbolSize : Nat) :
    estimateQueue safeWhole queuedDatagrams egressBytes symbolSize =
      min safeWhole (queuedDatagrams + egressBytes ⌈/⌉ symbolSize) := by
  simp only [estimateQueue, egressSymbols_eq]
  split <;> split <;> omega

theorem estimate_wellDefined (hrange : pathflow.Range safeWhole) (stats : Option QuicPathStats)
    (queuedDatagrams egressBytes symbolSize : Nat) (relativeOwd : Fixed) :
    (estimate pathflow safeWhole stats queuedDatagrams egressBytes symbolSize relativeOwd).WellDefined
      pathflow safeWhole queuedDatagrams egressBytes symbolSize := by
  have hhundred := hrange.hundred_le
  cases stats with
  | none =>
      exact
        { rate_pos := hrange.one_le_ofNat (by decide)
          rate_le := PacedBudget.ofNat_mono hrange.toFixedPoint hhundred
          loss_nonneg := hrange.defaultLoss_nonneg
          loss_le := hrange.defaultLoss_le
          queue_eq := estimateQueue_eq safeWhole queuedDatagrams egressBytes symbolSize }
  | some stats =>
      have hrate := estimateRate_bounds hrange stats symbolSize
      have hloss := estimateLoss_bounds hrange stats
      exact
        { rate_pos := hrate.1
          rate_le := hrate.2
          loss_nonneg := hloss.1
          loss_le := hloss.2
          queue_eq := estimateQueue_eq safeWhole queuedDatagrams egressBytes symbolSize }

end PathSample

namespace MeasuredPath

theorem probeCap_bounds (hrange : pathflow.Range safeWhole) (m : Option MeasuredPath)
    (stats : Option QuicPathStats) (symbolSize nowMs : Nat) :
    1 ≤ probeCap pathflow safeWhole m stats symbolSize nowMs ∧
      probeCap pathflow safeWhole m stats symbolSize nowMs ≤ pathflow.ofNat safeWhole := by
  have hhundred := hrange.hundred_le
  have hceiling : 1 ≤ pathflow.ofNat safeWhole := hrange.one_le_ofNat (by omega)
  have hopen : 1 ≤ pathflow.ofNat safeWhole ∧ pathflow.ofNat safeWhole ≤ pathflow.ofNat safeWhole :=
    ⟨hceiling, Int.le_refl _⟩
  unfold probeCap
  extract_lets ceiling
  split
  · split
    · exact hopen
    · extract_lets lifetime peak
      split
      · exact hopen
      · split
        · exact hopen
        · exact clamped_bounds hceiling
  · exact hopen

end MeasuredPath

/-! ### Windows

The windows of a path, kept apart from the code: each runs from the call that opened it to the
call that closed it. -/

/-- A later call on the same QUIC path, with a clock and counters that did not go back. -/
@[mk_iff follows_iff]
structure PathCall.Follows (call opened : PathCall) : Prop where
  quicPath : call.quicPath = opened.quicPath
  clock : opened.nowMs ≤ call.nowMs
  acked : opened.stats.acked ≤ call.stats.acked
  bytesAcked : opened.stats.bytesAcked ≤ call.stats.bytesAcked
  sent : opened.stats.sent ≤ call.stats.sent
  localEndpoint : call.stats.localEndpoint.equal opened.stats.localEndpoint
  remoteEndpoint : call.stats.remoteEndpoint.equal opened.stats.remoteEndpoint

instance (call opened : PathCall) : Decidable (call.Follows opened) :=
  decidable_of_iff' _ (PathCall.follows_iff call opened)

structure ClosedWindow where
  opened : PathCall
  closed : PathCall
  busy : Bool

namespace ClosedWindow

def delivered (window : ClosedWindow) : Nat :=
  window.closed.stats.bytesAcked.toNat - window.opened.stats.bytesAcked.toNat

def elapsedMs (window : ClosedWindow) : Nat := window.closed.nowMs - window.opened.nowMs

/-- Acknowledged bytes per second, rounded down. -/
def rate (window : ClosedWindow) : Nat := window.delivered * 1000 / window.elapsedMs

def recorded (window : ClosedWindow) : Nat := min window.rate uint64Max

/-- The last window that was busy throughout and delivered something. -/
def lastBusy (closed : List ClosedWindow) : Option ClosedWindow :=
  closed.find? fun window => window.busy ∧ window.delivered ≠ 0

theorem lastBusy_cons (window : ClosedWindow) (closed : List ClosedWindow) :
    lastBusy (window :: closed) =
      if window.busy ∧ window.delivered ≠ 0 then some window else lastBusy closed := by
  rw [lastBusy, List.find?_cons]
  split
  · next hbusy => rw [if_pos (of_decide_eq_true hbusy)]
  · next hidle =>
    rw [if_neg (of_decide_eq_false hidle)]
    rfl

end ClosedWindow

/-- The window that is open, with whether every call in it was busy, and those closed since
the last restart, the newest first. -/
structure PathWindows where
  opened : Option PathCall := none
  busy : Bool := false
  closed : List ClosedWindow := []

namespace PathWindows

def observe (windows : PathWindows) : Option PathCall → PathWindows
  | none => windows
  | some call =>
      match windows.opened with
      | none => { opened := some call, busy := call.busy }
      | some opened =>
          if call.Follows opened then
            if call.nowMs - opened.nowMs < call.windowMs then
              { windows with busy := windows.busy && call.busy }
            else
              { opened := some call
                busy := call.busy
                closed := ⟨opened, call, windows.busy && call.busy⟩ :: windows.closed }
          else
            { opened := some call, busy := call.busy }

def run (windows : PathWindows) (calls : List (Option PathCall)) : PathWindows :=
  calls.foldl PathWindows.observe windows

end PathWindows

namespace MeasuredPath

/-- A measurement shows the windows of its path: the open one, the rates of the last four that
were closed, and the rate of the last busy one. -/
structure Shows (m : MeasuredPath) (windows : PathWindows) : Prop where
  initialized : m.initialized = windows.opened.isSome
  opened : ∀ opened, windows.opened = some opened →
    m.baseline = opened.stats ∧ m.quicPath = opened.quicPath ∧ m.startedMs = opened.nowMs ∧
      m.busy = windows.busy
  cursor : m.probeCursor < 4
  length : m.probeRates.length = 4 ∧ m.probeTimes.length = 4
  rates : RecentRing.Holds 4 m.probeCursor (m.probeRates.getD · 0) 0
    (windows.closed.map ClosedWindow.recorded)
  times : RecentRing.Holds 4 m.probeCursor (m.probeTimes.getD · 0) 0
    (windows.closed.map (·.closed.nowMs))
  delivered : m.deliveredBytesPerSecond = (ClosedWindow.lastBusy windows.closed).elim 0 ClosedWindow.recorded
  rateAt : m.rateAtMs = (ClosedWindow.lastBusy windows.closed).elim 0 (·.closed.nowMs)

variable {m : MeasuredPath} {windows : PathWindows} {opened : PathCall}

theorem zeroes_getD (index : Nat) (hindex : index < 4) : [0, 0, 0, 0].getD index 0 = 0 := by
  decide +revert

theorem shows_initial : Shows {} {} where
  initialized := rfl
  opened := by
    intro opened hopened
    cases hopened
  cursor := by decide
  length := ⟨rfl, rfl⟩
  rates := RecentRing.holds_nil _ zeroes_getD (by decide)
  times := RecentRing.holds_nil _ zeroes_getD (by decide)
  delivered := rfl
  rateAt := rfl

theorem shows_restarted (call : PathCall) :
    Shows (restarted call) { opened := some call, busy := call.busy } where
  initialized := rfl
  opened := by
    intro opened hopened
    cases hopened
    exact ⟨rfl, rfl, rfl, rfl⟩
  cursor := Nat.zero_lt_succ 3
  length := ⟨rfl, rfl⟩
  rates := RecentRing.holds_nil _ zeroes_getD (Nat.zero_lt_succ 3)
  times := RecentRing.holds_nil _ zeroes_getD (Nat.zero_lt_succ 3)
  delivered := rfl
  rateAt := rfl

theorem restarts_of_none (hshows : m.Shows windows) (hopened : windows.opened = none)
    (call : PathCall) : m.restarts call = true := by
  have hfresh : m.initialized = false := by
    rw [hshows.initialized, hopened]
    rfl
  simp only [restarts, hfresh, Bool.not_false, true_or, decide_true]

theorem restarts_iff (hshows : m.Shows windows) (hopened : windows.opened = some opened)
    (call : PathCall) : m.restarts call = true ↔ ¬ call.Follows opened := by
  obtain ⟨hbaseline, hpath, hstarted, -⟩ := hshows.opened opened hopened
  have hinitialized : m.initialized = true := by
    rw [hshows.initialized, hopened]
    rfl
  simp only [restarts, PathCall.follows_iff, hinitialized, hbaseline, hpath, hstarted,
    decide_eq_true_eq, Bool.not_true, Bool.false_eq_true, false_or, ne_eq, not_and_or,
    Nat.not_le, UInt64.not_le, Bool.not_eq_true', Bool.not_eq_true,
    eq_comm (a := call.quicPath)]

theorem windowMs_pos (call : PathCall) : 100 ≤ call.windowMs := by
  unfold PathCall.windowMs
  extract_lets window raised
  have hraised : 100 ≤ raised := by
    simp only [raised]
    split <;> omega
  split <;> omega

theorem touch_shows (hshows : m.Shows windows) (call : PathCall) :
    (m.touch call).Shows { windows with busy := windows.busy && call.busy } where
  initialized := hshows.initialized
  opened := by
    intro opened hopened
    obtain ⟨hbaseline, hpath, hstarted, hbusy⟩ := hshows.opened opened hopened
    exact ⟨hbaseline, hpath, hstarted, congrArg (· && call.busy) hbusy⟩
  cursor := hshows.cursor
  length := hshows.length
  rates := hshows.rates
  times := hshows.times
  delivered := hshows.delivered
  rateAt := hshows.rateAt

theorem holds_set {entries values : List Nat} (hcursor : cursor < 4)
    (hlength : entries.length = 4)
    (hholds : RecentRing.Holds 4 cursor (entries.getD · 0) 0 values) (value : Nat) :
    RecentRing.Holds 4 ((cursor + 1) % 4) ((entries.set cursor value).getD · 0) 0
      (value :: values) := by
  apply hholds.push hcursor
  · rw [List.getD_eq_getElem?_getD, List.getElem?_set_self (by omega)]
    rfl
  · intro index hindex
    rw [List.getD_eq_getElem?_getD, List.getElem?_set_ne (Ne.symm hindex),
      List.getD_eq_getElem?_getD]

theorem record_shows (hshows : m.Shows windows) (hopened : windows.opened = some opened)
    (hfollows : call.Follows opened)
    (hobserved : observed = (ClosedWindow.mk opened call windows.busy).recorded)
    (hdelivered : delivered = (ClosedWindow.mk opened call windows.busy).delivered) :
    (m.record call delivered observed).Shows
      { opened := some call
        busy := call.busy
        closed := ⟨opened, call, windows.busy⟩ :: windows.closed } where
  initialized := by
    rw [record, hshows.initialized, hopened]
    rfl
  opened := by
    intro later hlater
    cases hlater
    obtain ⟨-, hpath, -, -⟩ := hshows.opened opened hopened
    exact ⟨rfl, hpath.trans hfollows.quicPath.symm, rfl, rfl⟩
  cursor := Nat.mod_lt _ (by decide)
  length := by
    simp only [record, List.length_set]
    exact hshows.length
  rates := by
    rw [List.map_cons, ← hobserved]
    exact holds_set hshows.cursor hshows.length.1 hshows.rates observed
  times := holds_set hshows.cursor hshows.length.2 hshows.times call.nowMs
  delivered := by
    obtain ⟨-, -, -, hbusy⟩ := hshows.opened opened hopened
    rw [ClosedWindow.lastBusy_cons, ← hdelivered]
    simp only [record, hbusy, hshows.delivered]
    split
    · exact hobserved
    · rfl
  rateAt := by
    obtain ⟨-, -, -, hbusy⟩ := hshows.opened opened hopened
    rw [ClosedWindow.lastBusy_cons, ← hdelivered]
    simp only [record, hbusy, hshows.rateAt]
    split
    · rfl
    · rfl

theorem capped_eq (rate : Nat) :
    (if rate > uint64Max then uint64Max else rate) = min rate uint64Max := by
  split <;> omega

/-- One call: no subtraction goes below zero, no division is by zero. -/
theorem measure_shows (hshows : m.Shows windows) (call : Option PathCall) :
    ∃ m' restarted, m.measure call = some (m', restarted) ∧ m'.Shows (windows.observe call) := by
  cases call with
  | none => exact ⟨m, false, rfl, hshows⟩
  | some call =>
      simp only [measure, PathWindows.observe]
      cases hopened : windows.opened with
      | none =>
          rw [if_pos (restarts_of_none hshows hopened call)]
          exact ⟨_, _, rfl, shows_restarted call⟩
      | some opened =>
          simp only [restarts_iff hshows hopened call, ite_not]
          split
          · next hfollows =>
            obtain ⟨hbaseline, -, hstarted, -⟩ := hshows.opened opened hopened
            have htouched := touch_shows hshows call
            rw [hopened] at htouched
            have helapsed : uint64Diff call.nowMs (m.touch call).startedMs =
                some (call.nowMs - opened.nowMs) := by
              have hclock := hfollows.clock
              rw [← hstarted] at hclock ⊢
              exact if_pos hclock
            have hdelivered : uint64Diff call.stats.bytesAcked.toNat
                (m.touch call).baseline.bytesAcked.toNat =
                  some (call.stats.bytesAcked.toNat - opened.stats.bytesAcked.toNat) := by
              have hacked := UInt64.le_iff_toNat_le.mp hfollows.bytesAcked
              rw [← hbaseline] at hacked ⊢
              exact if_pos hacked
            simp only [helapsed, Option.bind_eq_bind, Option.bind_some]
            split
            · exact ⟨_, _, rfl, htouched⟩
            · next hclosed =>
              have hwindow := windowMs_pos call
              have hrate : wideDiv ((call.stats.bytesAcked.toNat -
                  opened.stats.bytesAcked.toNat) * 1000) (call.nowMs - opened.nowMs) =
                    some (ClosedWindow.mk opened call (windows.busy && call.busy)).rate :=
                if_neg (by omega)
              simp only [hdelivered, hrate, Option.bind_some]
              refine ⟨_, _, rfl, record_shows htouched rfl hfollows (capped_eq _) rfl⟩
          · exact ⟨_, _, rfl, shows_restarted call⟩

theorem run_shows (hshows : m.Shows windows) (calls : List (Option PathCall)) :
    ∃ m', m.run calls = some m' ∧ m'.Shows (windows.run calls) := by
  induction calls generalizing m windows with
  | nil => exact ⟨m, rfl, hshows⟩
  | cons call rest ih =>
      obtain ⟨next, restarted, hnext, hstep⟩ := measure_shows hshows call
      obtain ⟨final, hfinal, hrun⟩ := ih hstep
      refine ⟨final, ?_, hrun⟩
      rw [run, List.foldlM_cons, hnext]
      exact hfinal

end MeasuredPath

/-- Whatever the counters and the clock do: estimates and probe caps are in range, and a
measurement shows the rates of the windows that were closed. -/
theorem pathEstimates_wellDefined (hrange : pathflow.Range safeWhole) :
    (∀ stats queuedDatagrams egressBytes symbolSize relativeOwd,
      (PathSample.estimate pathflow safeWhole stats queuedDatagrams egressBytes symbolSize
        relativeOwd).WellDefined pathflow safeWhole queuedDatagrams egressBytes symbolSize) ∧
      (∀ calls, ∃ m, MeasuredPath.run {} calls = some m ∧ m.Shows (PathWindows.run {} calls)) ∧
      ∀ m stats symbolSize nowMs,
        1 ≤ MeasuredPath.probeCap pathflow safeWhole m stats symbolSize nowMs ∧
          MeasuredPath.probeCap pathflow safeWhole m stats symbolSize nowMs ≤
            pathflow.ofNat safeWhole :=
  ⟨PathSample.estimate_wellDefined hrange, MeasuredPath.run_shows MeasuredPath.shows_initial,
    MeasuredPath.probeCap_bounds hrange⟩

theorem range_firstPathflow : Transport.firstPathflow.Range 32767 where
  toFixedPoint := PacedBudget.fixedPoint_firstPathflow
  hundred_le := by decide
  defaultLoss_nonneg := by decide
  defaultLoss_le := by decide

theorem pathEstimates_firstPathflow :
    (∀ stats queuedDatagrams egressBytes symbolSize relativeOwd,
      (PathSample.estimate Transport.firstPathflow 32767 stats queuedDatagrams egressBytes symbolSize
        relativeOwd).WellDefined Transport.firstPathflow 32767 queuedDatagrams egressBytes
          symbolSize) ∧
      (∀ calls, ∃ m, MeasuredPath.run {} calls = some m ∧ m.Shows (PathWindows.run {} calls)) ∧
      ∀ m stats symbolSize nowMs,
        1 ≤ MeasuredPath.probeCap Transport.firstPathflow 32767 m stats symbolSize nowMs ∧
          MeasuredPath.probeCap Transport.firstPathflow 32767 m stats symbolSize nowMs ≤
            Transport.firstPathflow.ofNat 32767 :=
  pathEstimates_wellDefined range_firstPathflow

/-- A call on a path between two local sockets. -/
def loopbackCall (bytesAcked : UInt64) (nowMs : Nat) : PathCall where
  stats :=
    { bytesAcked := bytesAcked
      localEndpoint := { addr := some (.inet 0x7f000001 4433) }
      remoteEndpoint := { addr := some (.inet 0x7f000001 4434) } }
  quicPath := 0
  queuedDatagrams := 0
  nowMs := nowMs

/-- The rate of a window with the largest count does not fit its 64 bits. -/
theorem recorded_rate_saturates :
    (MeasuredPath.run {} [some (loopbackCall 0 0),
        some (loopbackCall 18446744073709551615 100)]).map (fun m => m.probeRates) =
      some [18446744073709551615, 0, 0, 0] ∧
    (ClosedWindow.mk (loopbackCall 0 0) (loopbackCall 18446744073709551615 100) false).rate =
      184467440737095516150 := by
  decide

end Qlinq
