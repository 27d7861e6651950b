import Qlinq.Pacing
import Qlinq.Paths
import Qlinq.WirePayloads

namespace Qlinq

/-! The one-way delay of a path slot. The clocks of the two hosts are unrelated, so the
least difference that telemetry has shown is taken for no delay. -/

def int64Max : Nat := 2 ^ 63 - 1

/-- A subtraction of signed integers; `none` is an overflow. -/
def int64Sub (a b : Int) : Option Int :=
  if -2 ^ 63 ≤ a - b ∧ a - b < 2 ^ 63 then some (a - b) else none

/-- The subtraction of two signed integers as unsigned ones. -/
def uint64Sub (a b : Int) : Nat := ((a - b) % 2 ^ 64).toNat

/-- A telemetry datagram with what it is looked up in. -/
structure TelemetryArrival where
  telemetry : WireTelemetry
  /-- The local address of the QUIC path it names, when that path is available. -/
  pathLocal : Option SockAddr
  localSlots : List PathSlot

namespace TelemetryArrival

def pathId (arrival : TelemetryArrival) : Nat := arrival.telemetry.pathId.toNat

def sNs (arrival : TelemetryArrival) : Nat := arrival.telemetry.sendTimeNs.toNat

def rNs (arrival : TelemetryArrival) : Nat := arrival.telemetry.recvTimeNs.toNat

/-- The first socket with the address of the path. -/
def slot (arrival : TelemetryArrival) : Option Nat :=
  arrival.pathLocal.bind fun addr =>
    arrival.localSlots.findIdx? fun slot => slot.localAddr.any (SockAddr.sameHost addr)

def malformed (arrival : TelemetryArrival) : Bool :=
  arrival.sNs > int64Max ∨ arrival.rNs > int64Max

theorem malformed_eq_false_iff (arrival : TelemetryArrival) :
    arrival.malformed = false ↔ arrival.sNs ≤ int64Max ∧ arrival.rNs ≤ int64Max := by
  simp only [malformed, decide_eq_false_iff_not, not_or, gt_iff_lt, Nat.not_lt]

end TelemetryArrival

/-- The delay baseline of a slot after a sample, and how far the sample is above it. -/
def PathRecord.rebase (record : PathRecord) (pathId : Nat) (current : Int) : Int × Nat :=
  if record.owdInitialized = false ∨ record.telemetryPath ≠ pathId ∨
      current < record.minOwdNs then
    (current, 0)
  else
    let relative := uint64Sub current record.minOwdNs
    if relative > 10000000000 then (current, 0) else (record.minOwdNs, relative)

def PathRecord.sample (pathflow : Pathflow) (record : PathRecord) (arrival : TelemetryArrival)
    (minOwdNs : Int) (relative : Nat) : PathRecord :=
  { record with
    minOwdNs := minOwdNs
    owdInitialized := true
    telemetryPath := arrival.pathId
    latestOwd := pathflow.ofNat (relative / 1000) / 1000000
    lastTelemetrySNs := arrival.sNs
    lastTelemetryRNs := arrival.rNs }

/-- A reply for the slot, within `on_receive_datagram_frame`. -/
def PathRecord.observe (pathflow : Pathflow) (record : PathRecord) (arrival : TelemetryArrival) :
    Option PathRecord :=
  if record.owdInitialized ∧ record.telemetryPath = arrival.pathId ∧
      arrival.sNs ≤ record.lastTelemetrySNs then
    some record
  else
    (int64Sub arrival.rNs arrival.sNs).map fun current =>
      let (minOwdNs, relative) := record.rebase arrival.pathId current
      record.sample pathflow arrival minOwdNs relative

structure DelayConn extends PathConn where
  malformedDatagrams : Nat := 0

/-- What touches the delays of a connection: telemetry, and the removal of a slot. -/
inductive DelayEvent
  | telemetry (arrival : TelemetryArrival)
  | slotRemoved (numFds removedIndex : Nat)

namespace DelayConn

/-- The telemetry branch of `on_receive_datagram_frame`. -/
def onTelemetry (pathflow : Pathflow) (conn : DelayConn) (arrival : TelemetryArrival) :
    Option DelayConn :=
  match arrival.slot with
  | none => some conn
  | some pid =>
      if arrival.malformed then
        some { conn with malformedDatagrams := conn.malformedDatagrams + 1 }
      else
        ((conn.records pid).observe pathflow arrival).map fun record =>
          { conn with records := Function.update conn.records pid record }

def step (pathflow : Pathflow) (conn : DelayConn) : DelayEvent → Option DelayConn
  | .telemetry arrival => conn.onTelemetry pathflow arrival
  | .slotRemoved numFds removedIndex =>
      some { conn with
        toPathConn := Paths.removeConnectionPhysicalSlot numFds removedIndex conn.toPathConn }

def run (pathflow : Pathflow) (conn : DelayConn) (events : List DelayEvent) : Option DelayConn :=
  events.foldlM (DelayConn.step pathflow) conn

end DelayConn

/-! ### What was accepted

The telemetry accepted for a slot since the slot was last reset, kept apart from the code. -/

def TelemetryArrival.delay (arrival : TelemetryArrival) : Int :=
  (arrival.rNs : Int) - arrival.sNs

structure DelayWindow where
  path : Nat
  lastSend : Nat
  latest : Int
  earlier : List Int
  deriving DecidableEq, Repr

namespace DelayWindow

def samples (window : DelayWindow) : List Int := window.latest :: window.earlier

def least (window : DelayWindow) : Int := window.earlier.foldl min window.latest

def start (arrival : TelemetryArrival) : DelayWindow where
  path := arrival.pathId
  lastSend := arrival.sNs
  latest := arrival.delay
  earlier := []

def extend (window : DelayWindow) (arrival : TelemetryArrival) : DelayWindow where
  path := window.path
  lastSend := arrival.sNs
  latest := arrival.delay
  earlier := window.samples

def Reordered (window : DelayWindow) (arrival : TelemetryArrival) : Prop :=
  window.path = arrival.pathId ∧ arrival.sNs ≤ window.lastSend

instance (window : DelayWindow) (arrival : TelemetryArrival) :
    Decidable (window.Reordered arrival) :=
  inferInstanceAs (Decidable (_ ∧ _))

/-- The resets: a first sample, another QUIC path, a jump of more than ten seconds. -/
def accept (window : Option DelayWindow) (arrival : TelemetryArrival) : DelayWindow :=
  match window with
  | none => start arrival
  | some window =>
      if window.Reordered arrival then
        window
      else if window.path ≠ arrival.pathId ∨
          window.least + 10000000000 < arrival.delay then
        start arrival
      else
        window.extend arrival

def step (windows : Nat → Option DelayWindow) : DelayEvent → Nat → Option DelayWindow
  | .telemetry arrival =>
      match arrival.slot with
      | none => windows
      | some pid =>
          if arrival.malformed then
            windows
          else
            Function.update windows pid (some (accept (windows pid) arrival))
  | .slotRemoved numFds removedIndex =>
      Function.update (Compaction.shiftDown removedIndex (numFds - 1) windows) (numFds - 1) none

def run (windows : Nat → Option DelayWindow) (events : List DelayEvent) :
    Nat → Option DelayWindow :=
  events.foldl DelayWindow.step windows

/-! ### The least sample -/

theorem isLeast_least (window : DelayWindow) :
    IsLeast {delay | delay ∈ window.samples} window.least :=
  List.min?_eq_some_iff.mp List.min?_cons'

theorem least_le_latest (window : DelayWindow) : window.least ≤ window.latest :=
  window.isLeast_least.2 (List.mem_cons_self ..)

theorem least_extend (window : DelayWindow) (arrival : TelemetryArrival) :
    (window.extend arrival).least = min arrival.delay window.least :=
  List.foldl_assoc

/-- A window is also within what the integers of the code can represent. -/
structure Bounded (window : DelayWindow) : Prop where
  lastSend_le : window.lastSend ≤ int64Max
  representable : ∀ delay ∈ window.samples, -int64Max ≤ delay ∧ delay ≤ int64Max
  recent : window.latest ≤ window.least + 10000000000

theorem bounded_start (hvalid : arrival.malformed = false) : (start arrival).Bounded := by
  rw [arrival.malformed_eq_false_iff] at hvalid
  have hdelay : (start arrival).latest = (arrival.rNs : Int) - arrival.sNs := rfl
  have hleast : (start arrival).least = (start arrival).latest := rfl
  constructor
  · exact hvalid.1
  · intro delay hmem
    cases List.mem_singleton.mp hmem
    omega
  · omega

theorem Bounded.extend {window : DelayWindow} (hwindow : window.Bounded)
    (hvalid : arrival.malformed = false)
    (hnear : arrival.delay ≤ window.least + 10000000000) :
    (window.extend arrival).Bounded := by
  have hstart := bounded_start hvalid
  have hrecent := window.least_extend arrival
  constructor
  · exact hstart.lastSend_le
  · intro delay hmem
    cases List.mem_cons.mp hmem with
    | inl hlatest => exact hstart.representable delay (hlatest ▸ List.mem_singleton_self _)
    | inr hearlier => exact hwindow.representable delay hearlier
  · have hlatest : (window.extend arrival).latest = arrival.delay := rfl
    omega

end DelayWindow

/-! ### The code against the windows -/

/-- A record shows a window: its baseline is the least sample, and its delay is how far the
latest one is above that. -/
structure PathRecord.Shows (pathflow : Pathflow) (record : PathRecord)
    (window : DelayWindow) : Prop where
  initialized : record.owdInitialized = true
  path : record.telemetryPath = window.path
  lastSend : record.lastTelemetrySNs = window.lastSend
  least : record.minOwdNs = window.least
  latest : record.latestOwd =
    pathflow.ofNat ((window.latest - window.least).toNat / 1000) / 1000000

def PathRecord.Agrees (pathflow : Pathflow) (record : PathRecord) : Option DelayWindow → Prop
  | none => record.owdInitialized = false ∧ record.latestOwd = 0
  | some window => record.Shows pathflow window ∧ window.Bounded

variable {pathflow : Pathflow} {record : PathRecord} {arrival : TelemetryArrival}

theorem int64Sub_arrival (hvalid : arrival.malformed = false) :
    int64Sub arrival.rNs arrival.sNs = some arrival.delay := by
  rw [arrival.malformed_eq_false_iff] at hvalid
  simp only [int64Max] at hvalid
  exact if_pos (by omega)

/-- The span of two delays takes more than a signed integer, and fits an unsigned one. -/
theorem uint64Sub_eq {a b : Int} (hle : b ≤ a) (ha : a ≤ int64Max) (hb : -int64Max ≤ b) :
    uint64Sub a b = (a - b).toNat := by
  simp only [int64Max] at ha hb
  rw [uint64Sub, Int.emod_eq_of_lt (by omega) (by omega)]

theorem rebase_start (hfresh : record.owdInitialized = false ∨ record.telemetryPath ≠ pathId) :
    record.rebase pathId current = (current, 0) :=
  if_pos (by
    cases hfresh with
    | inl hfirst => exact .inl hfirst
    | inr hmoved => exact .inr (.inl hmoved))

theorem rebase_shows (hshows : record.Shows pathflow window) (hbounded : window.Bounded)
    {current : Int} (hcurrent : current ≤ int64Max) (hpath : window.path = pathId) :
    record.rebase pathId current =
      if window.least + 10000000000 < current then
        (current, 0)
      else
        (min current window.least, (current - min current window.least).toNat) := by
  have hleast := hbounded.representable window.least window.isLeast_least.1
  have hpath' : record.telemetryPath = pathId := hshows.path.trans hpath
  simp only [PathRecord.rebase, hshows.initialized, hpath', hshows.least, ne_eq, not_true_eq_false,
    false_or, Bool.true_eq_false]
  split
  · next hbelow =>
    rw [if_neg (by omega), Int.min_eq_left (Int.le_of_lt hbelow), Int.sub_self]
    rfl
  · next habove =>
    have hle := Int.not_lt.mp habove
    rw [uint64Sub_eq hle hcurrent hleast.1, Int.min_eq_right hle]
    split
    · rw [if_pos (by omega)]
    · rw [if_neg (by omega)]

theorem sample_shows (hpath : window.path = arrival.pathId) (hsend : window.lastSend = arrival.sNs)
    (hlatest : window.latest = arrival.delay) (record : PathRecord) :
    (record.sample pathflow arrival window.least (arrival.delay - window.least).toNat).Shows
      pathflow window where
  initialized := rfl
  path := hpath.symm
  lastSend := hsend.symm
  least := rfl
  latest := by
    rw [hlatest]
    rfl

theorem start_shows (record : PathRecord) :
    (record.sample pathflow arrival arrival.delay 0).Shows pathflow
      (DelayWindow.start arrival) := by
  have hshows := @sample_shows pathflow arrival (DelayWindow.start arrival) rfl rfl rfl record
  have hleast : (DelayWindow.start arrival).least = arrival.delay := rfl
  rw [hleast, Int.sub_self] at hshows
  exact hshows

theorem observe_agrees (hagrees : record.Agrees pathflow window)
    (hvalid : arrival.malformed = false) :
    ∃ record', record.observe pathflow arrival = some record' ∧
      record'.Agrees pathflow (some (DelayWindow.accept window arrival)) := by
  have hsub := int64Sub_arrival hvalid
  cases window with
  | none =>
      obtain ⟨hfirst, -⟩ := hagrees
      simp only [PathRecord.observe, hfirst, Bool.false_eq_true, false_and, if_false, hsub,
        Option.map_some, rebase_start (.inl hfirst)]
      exact ⟨_, rfl, start_shows record, DelayWindow.bounded_start hvalid⟩
  | some window =>
      obtain ⟨hshows, hbounded⟩ := hagrees
      have hcurrent : arrival.delay ≤ int64Max :=
        ((DelayWindow.bounded_start hvalid).representable _ (List.mem_singleton_self _)).2
      have hreordered : (record.owdInitialized ∧ record.telemetryPath = arrival.pathId ∧
          arrival.sNs ≤ record.lastTelemetrySNs) ↔ window.Reordered arrival := by
        rw [hshows.initialized, hshows.path, hshows.lastSend]
        exact and_iff_right rfl
      simp only [PathRecord.observe, hreordered, DelayWindow.accept, hsub, Option.map_some]
      split
      · exact ⟨record, rfl, hshows, hbounded⟩
      refine ⟨_, rfl, ?_⟩
      by_cases hpath : window.path = arrival.pathId
      · rw [rebase_shows hshows hbounded hcurrent hpath]
        simp only [hpath, ne_eq, not_true_eq_false, false_or]
        split
        · exact ⟨start_shows record, DelayWindow.bounded_start hvalid⟩
        · next hnear =>
          have hextended := @sample_shows pathflow arrival (window.extend arrival) hpath rfl rfl
            record
          rw [window.least_extend] at hextended
          exact ⟨hextended, hbounded.extend hvalid (Int.not_lt.mp hnear)⟩
      · have hmoved : record.telemetryPath ≠ arrival.pathId := by
          rw [hshows.path]
          exact hpath
        rw [rebase_start (.inr hmoved), if_pos (.inl hpath)]
        exact ⟨start_shows record, DelayWindow.bounded_start hvalid⟩

theorem agrees_fresh (pathflow : Pathflow) : PathRecord.Agrees pathflow {} none := ⟨rfl, rfl⟩

namespace DelayConn

variable {conn : DelayConn} {windows : Nat → Option DelayWindow}

/-- No step overflows, and every slot keeps showing its window. -/
theorem step_agrees (hagrees : ∀ slot, (conn.records slot).Agrees pathflow (windows slot))
    (event : DelayEvent) :
    ∃ conn', conn.step pathflow event = some conn' ∧
      ∀ slot, (conn'.records slot).Agrees pathflow (DelayWindow.step windows event slot) := by
  cases event with
  | telemetry arrival =>
      simp only [step, onTelemetry, DelayWindow.step]
      cases arrival.slot with
      | none => exact ⟨conn, rfl, hagrees⟩
      | some pid =>
          cases hvalid : arrival.malformed with
          | true => exact ⟨_, rfl, hagrees⟩
          | false =>
              obtain ⟨record, hrecord, hshown⟩ := observe_agrees (hagrees pid) hvalid
              simp only [hrecord, Bool.false_eq_true, if_false, Option.map_some]
              refine ⟨_, rfl, fun slot => ?_⟩
              simp only [Function.update_apply]
              split
              · exact hshown
              · exact hagrees slot
  | slotRemoved numFds removedIndex =>
      refine ⟨_, rfl, fun slot => ?_⟩
      simp only [DelayWindow.step, Paths.removeConnectionPhysicalSlot, Function.update_apply,
        Compaction.shiftDown_apply]
      split
      · exact agrees_fresh pathflow
      · split
        · exact hagrees (slot + 1)
        · exact hagrees slot

theorem run_agrees (hagrees : ∀ slot, (conn.records slot).Agrees pathflow (windows slot))
    (events : List DelayEvent) :
    ∃ conn', conn.run pathflow events = some conn' ∧
      ∀ slot, (conn'.records slot).Agrees pathflow (DelayWindow.run windows events slot) := by
  induction events generalizing conn windows with
  | nil => exact ⟨conn, rfl, hagrees⟩
  | cons event rest ih =>
      obtain ⟨next, hnext, hstep⟩ := step_agrees hagrees event
      obtain ⟨final, hfinal, hrun⟩ := ih hstep
      refine ⟨final, ?_, hrun⟩
      rw [run, List.foldlM_cons, hnext]
      exact hfinal

/-- What the delay of a slot means, given the telemetry accepted for it since its last
reset. -/
structure SoundDelay (pathflow : Pathflow) (conn : DelayConn)
    (windows : Nat → Option DelayWindow) (slot : Nat) : Prop where
  initialized : (conn.records slot).owdInitialized = (windows slot).isSome
  baseline : ∀ window, windows slot = some window →
    IsLeast {delay | delay ∈ window.samples} (conn.records slot).minOwdNs
  relative : ∀ window, windows slot = some window →
    ∃ relativeNs : Nat, relativeNs ≤ 10000000000 ∧
      (conn.records slot).minOwdNs + relativeNs = window.latest ∧
      (conn.records slot).latestOwd = pathflow.ofNat (relativeNs / 1000) / 1000000
  nonneg : 0 ≤ (conn.records slot).latestOwd
  le_ten : (conn.records slot).latestOwd ≤ pathflow.ofNat 10
  reordered : ∀ window arrival, windows slot = some window → arrival.slot = some slot →
    window.Reordered arrival →
    ∃ conn', conn.onTelemetry pathflow arrival = some conn' ∧
      conn'.toPathConn = conn.toPathConn ∧ (arrival.rNs ≤ int64Max → conn' = conn)

theorem le_ten_seconds (hfixed : pathflow.FixedPoint) (hle : relativeNs ≤ 10000000000) :
    0 ≤ pathflow.ofNat (relativeNs / 1000) / 1000000 ∧
      pathflow.ofNat (relativeNs / 1000) / 1000000 ≤ pathflow.ofNat 10 := by
  have hmono := PacedBudget.ofNat_mono hfixed (m := relativeNs / 1000) (n := 10000000) (by omega)
  have hten : pathflow.ofNat 10000000 = pathflow.ofNat 10 * 1000000 := by
    rw [hfixed.ofNat_eq, hfixed.ofNat_eq, Int.mul_right_comm]
    rfl
  constructor
  · exact Int.ediv_nonneg (PacedBudget.required_nonneg hfixed _) (by decide)
  · rw [hten] at hmono
    exact Int.ediv_le_of_le_mul (by decide) hmono

theorem reordered_unchanged (hshows : (conn.records slot).Shows pathflow window)
    (hsend : window.lastSend ≤ int64Max) (hslot : arrival.slot = some slot)
    (hreordered : window.Reordered arrival) :
    ∃ conn', conn.onTelemetry pathflow arrival = some conn' ∧
      conn'.toPathConn = conn.toPathConn ∧ (arrival.rNs ≤ int64Max → conn' = conn) := by
  simp only [onTelemetry, hslot]
  cases hvalid : arrival.malformed with
  | true =>
      refine ⟨_, rfl, rfl, fun hreceived => ?_⟩
      have hfits := (arrival.malformed_eq_false_iff).mpr
        ⟨Nat.le_trans hreordered.2 hsend, hreceived⟩
      rw [hfits] at hvalid
      cases hvalid
  | false =>
      have hsame : (conn.records slot).owdInitialized ∧
          (conn.records slot).telemetryPath = arrival.pathId ∧
          arrival.sNs ≤ (conn.records slot).lastTelemetrySNs := by
        rw [hshows.initialized, hshows.path, hshows.lastSend]
        exact ⟨rfl, hreordered⟩
      simp only [PathRecord.observe, if_pos hsame, Bool.false_eq_true, if_false, Option.map_some,
        Function.update_eq_self]
      exact ⟨conn, rfl, rfl, fun _ => rfl⟩

theorem soundDelay_of_agrees (hfixed : pathflow.FixedPoint)
    (hagrees : (conn.records slot).Agrees pathflow (windows slot)) :
    conn.SoundDelay pathflow windows slot := by
  cases hwindow : windows slot with
  | none =>
      rw [hwindow] at hagrees
      obtain ⟨hfirst, hzero⟩ := hagrees
      constructor
      · rw [hfirst, hwindow]
        rfl
      · simp [hwindow]
      · simp [hwindow]
      · exact Int.le_of_eq hzero.symm
      · rw [hzero]
        exact PacedBudget.required_nonneg hfixed 10
      · simp [hwindow]
  | some window =>
      rw [hwindow] at hagrees
      obtain ⟨hshows, hbounded⟩ := hagrees
      have hle := window.least_le_latest
      have hrecent := hbounded.recent
      have hnear : (window.latest - window.least).toNat ≤ 10000000000 := by omega
      have hrange := le_ten_seconds hfixed hnear
      rw [← hshows.latest] at hrange
      constructor
      · rw [hshows.initialized, hwindow]
        rfl
      · intro w hw
        cases hwindow.symm.trans hw
        rw [hshows.least]
        exact window.isLeast_least
      · intro w hw
        cases hwindow.symm.trans hw
        refine ⟨_, hnear, ?_, hshows.latest⟩
        rw [hshows.least]
        omega
      · exact hrange.1
      · exact hrange.2
      · intro w arrival hw hslot hreordered
        cases hwindow.symm.trans hw
        exact reordered_unchanged hshows hbounded.lastSend_le hslot hreordered

/-- Over every sequence of telemetry, whatever the clocks of the two hosts show and whichever
slots are removed in between: nothing overflows, and every slot's delay is sound. -/
theorem soundDelay_run (hfixed : pathflow.FixedPoint) (events : List DelayEvent) :
    ∃ conn, run pathflow {} events = some conn ∧
      ∀ slot, conn.SoundDelay pathflow (DelayWindow.run (fun _ => none) events) slot := by
  have hfresh : ∀ slot, (({} : DelayConn).records slot).Agrees pathflow none :=
    fun _ => agrees_fresh pathflow
  obtain ⟨conn, hrun, hagrees⟩ := run_agrees hfresh events
  exact ⟨conn, hrun, fun slot => soundDelay_of_agrees hfixed (hagrees slot)⟩

/-- Telemetry for one of two QUIC paths that share the only socket. -/
def sharedSocket (pathId : UInt8) (sendTimeNs recvTimeNs : UInt64) : DelayEvent :=
  .telemetry
    { telemetry := ⟨pathId, sendTimeNs, recvTimeNs⟩
      pathLocal := some (.inet 0x7f000001 4433)
      localSlots := [{ localAddr := some (.inet 0x7f000001 4433) }] }

theorem soundDelay_shared : ∃ conn,
    run Transport.firstPathflow {} [sharedSocket 0 100 110, sharedSocket 1 50 60] = some conn ∧
      ∀ slot, conn.SoundDelay Transport.firstPathflow (DelayWindow.run (fun _ => none)
        [sharedSocket 0 100 110, sharedSocket 1 50 60]) slot :=
  soundDelay_run PacedBudget.fixedPoint_firstPathflow _

/-- A reply of the first path is accepted, then one of the second. An older reply of the first
path is taken for a change of path, and its delay for the new baseline. -/
theorem older_reply_rebases :
    (run Transport.firstPathflow {} [sharedSocket 0 100 110, sharedSocket 1 50 60]).map
        (fun conn => (conn.records 0).minOwdNs) = some 10 ∧
      (run Transport.firstPathflow {}
          [sharedSocket 0 100 110, sharedSocket 1 50 60, sharedSocket 0 90 300]).map
        (fun conn => (conn.records 0).minOwdNs) = some 210 := by
  decide

end DelayConn

end Qlinq
