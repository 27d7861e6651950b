import Qlinq.Lib.Backoff
import Qlinq.Lib.Machine

namespace Qlinq

/-! The connection of a client: how it is started, lost and started again. -/

def defaultReconnectInitialDelayMs : Nat := 250

def defaultReconnectMaxDelayMs : Nat := 30000

/-- Connection ids and master CIDs have 32 bits. -/
def connectionIds : Nat := 2 ^ 32

structure ClientConn where
  id : Nat
  masterId : Nat
  quicReady : Bool := false
  protocolReady : Bool := false
  connectedEmitted : Bool := false
  deriving DecidableEq, Repr

/-- `masterIds` records what `quicly_connect` was given, newest first. -/
structure Client where
  reconnectEnabled : Bool
  shuttingDown : Bool := false
  reconnectInProgress : Bool := false
  reconnectInitialDelayMs : Nat
  reconnectMaxDelayMs : Nat
  reconnectCurrentDelayMs : Nat
  reconnectAtMs : Int := 0
  clientConn : Option ClientConn := none
  nextConnId : Nat := 1
  nextMasterId : Nat := 0
  reconnectAttempts : Nat := 0
  reconnectSucceeded : Nat := 0
  reconnectFailed : Nat := 0
  connectionsClosed : Nat := 0
  handshakesCompleted : Nat := 0
  masterIds : List Nat := []
  deriving DecidableEq, Repr

/-- What a start of a connection meets: whether there is a socket, the allocations, the answer
of `quicly_connect` and that of `quicly_open_stream`. -/
structure StartAnswers where
  hasSocket : Bool
  allocates : Bool
  subscribes : Bool
  connects : Bool
  opensStream : Bool
  deriving DecidableEq, Repr

namespace Client

/-- `start_client_connection`. -/
def startConnection (c : Client) (answers : StartAnswers) : Client × Bool :=
  if !answers.hasSocket || c.clientConn.isSome || !answers.allocates then
    (c, false)
  else
    let conn : ClientConn := { id := c.nextConnId, masterId := c.nextMasterId }
    let c := { c with nextConnId := (c.nextConnId + 1) % connectionIds }
    if !answers.subscribes || !answers.connects then
      (c, false)
    else
      let c :=
        { c with
          nextMasterId := (c.nextMasterId + 1) % connectionIds
          masterIds := c.nextMasterId :: c.masterIds }
      if answers.opensStream then ({ c with clientConn := some conn }, true) else (c, false)

/-- `schedule_client_reconnect`. -/
def scheduleReconnect (c : Client) (nowMs : Int) : Client × List Backoff.Event :=
  if !c.reconnectEnabled || c.shuttingDown then
    (c, [])
  else
    ({ c with
        reconnectAtMs := nowMs + c.reconnectCurrentDelayMs
        reconnectCurrentDelayMs :=
          if c.reconnectCurrentDelayMs < c.reconnectMaxDelayMs then
            if c.reconnectMaxDelayMs < c.reconnectCurrentDelayMs * 2 then c.reconnectMaxDelayMs
            else c.reconnectCurrentDelayMs * 2
          else
            c.reconnectCurrentDelayMs },
      [.scheduled nowMs c.reconnectCurrentDelayMs])

/-- The reconnect of `transport_tick`. -/
def tick (c : Client) (nowMs : Int) (answers : StartAnswers) : Client × List Backoff.Event :=
  if c.clientConn.isNone && c.reconnectEnabled && !c.shuttingDown &&
      decide (c.reconnectAtMs ≤ nowMs) then
    let c := { c with reconnectAttempts := c.reconnectAttempts + 1, reconnectInProgress := true }
    match c.startConnection answers with
    | (c, true) => (c, [.attempted nowMs])
    | (c, false) =>
        let (c, scheduled) :=
          scheduleReconnect
            { c with
              reconnectFailed := c.reconnectFailed + 1
              reconnectInProgress := false } nowMs
        (c, .attempted nowMs :: scheduled)
  else
    (c, [])

/-- `transport_protocol_maybe_emit_connected`. -/
def maybeEmitConnected (c : Client) : Client × List Backoff.Event :=
  match c.clientConn with
  | none => (c, [])
  | some conn =>
      if conn.connectedEmitted || !conn.quicReady || !conn.protocolReady then
        (c, [])
      else
        let c :=
          { c with
            clientConn := some { conn with connectedEmitted := true }
            handshakesCompleted := c.handshakesCompleted + 1 }
        if c.reconnectInProgress then
          ({ c with
              reconnectSucceeded := c.reconnectSucceeded + 1
              reconnectInProgress := false
              reconnectCurrentDelayMs := c.reconnectInitialDelayMs }, [.completed])
        else
          (c, [])

/-- `quicReady` and `helloReceived` are the two halves of a handshake, `closed` is the end of the
connection in QUIC. -/
inductive Op where
  | tick (nowMs : Int) (answers : StartAnswers)
  | quicReady
  | helloReceived
  | closed (nowMs : Int)
  | shutdown
  deriving DecidableEq, Repr

def step (c : Client) : Op → Client × List Backoff.Event
  | .tick nowMs answers => c.tick nowMs answers
  | .quicReady =>
      maybeEmitConnected
        { c with clientConn := c.clientConn.map fun conn => { conn with quicReady := true } }
  | .helloReceived =>
      maybeEmitConnected
        { c with clientConn := c.clientConn.map fun conn => { conn with protocolReady := true } }
  | .closed nowMs =>
      if c.clientConn.isNone then
        (c, [])
      else
        scheduleReconnect
          { c with clientConn := none, connectionsClosed := c.connectionsClosed + 1 } nowMs
  | .shutdown => ({ c with shuttingDown := true, reconnectInProgress := false }, [])

def apply (c : Client) (op : Op) : Client := (c.step op).1

def run (c : Client) (ops : List Op) : Client := Machine.run apply c ops

def history (c : Client) : List Op → List Backoff.Event
  | [] => []
  | op :: rest => (c.step op).2 ++ (c.apply op).history rest

/-- The client of `transport_create`: its delays in order, and its first connection started. -/
def create (initialDelayMs maxDelayMs : Nat) (reconnectEnabled : Bool) (answers : StartAnswers) :
    Option Client :=
  let initial := if initialDelayMs ≠ 0 then initialDelayMs else defaultReconnectInitialDelayMs
  let limit := if maxDelayMs ≠ 0 then maxDelayMs else defaultReconnectMaxDelayMs
  if limit < initial then
    none
  else
    let c : Client :=
      { reconnectEnabled
        reconnectInitialDelayMs := initial
        reconnectMaxDelayMs := limit
        reconnectCurrentDelayMs := initial }
    match c.startConnection answers with
    | (_, false) => none
    | (c, true) => some c

/-! ### The pace of the attempts -/

variable {b : Backoff} {c : Client}

/-- The delays behind `streak` attempts in a row; `due` is the time of the next one. -/
structure Waits (b : Backoff) (c : Client) (streak : Nat) (due : Option Int) : Prop where
  initial : c.reconnectInitialDelayMs = b.initial
  limit : c.reconnectMaxDelayMs = b.limit
  ordered : b.initial ≤ b.limit
  current : c.reconnectCurrentDelayMs = b.delay streak
  busy : c.clientConn.isSome = true → due = none
  idle : c.clientConn = none → c.reconnectEnabled = true → c.shuttingDown = false →
    due = some c.reconnectAtMs

/-- What a start leaves as it was. -/
def pacing (c : Client) : Bool × Bool × Bool × Nat × Nat × Nat × Int :=
  (c.reconnectEnabled, c.shuttingDown, c.reconnectInProgress, c.reconnectInitialDelayMs,
    c.reconnectMaxDelayMs, c.reconnectCurrentDelayMs, c.reconnectAtMs)

theorem startConnection_spec (c : Client) (answers : StartAnswers) :
    (c.startConnection answers).1.pacing = c.pacing ∧
      if (c.startConnection answers).2 then (c.startConnection answers).1.clientConn.isSome = true
      else (c.startConnection answers).1.clientConn = c.clientConn := by
  unfold startConnection
  split
  · exact ⟨rfl, rfl⟩
  simp only
  split
  · exact ⟨rfl, rfl⟩
  split
  · exact ⟨rfl, rfl⟩
  · exact ⟨rfl, rfl⟩

/-- A schedule takes the delay of the streak and leaves that of the next. -/
theorem waits_scheduleReconnect (hinitial : c.reconnectInitialDelayMs = b.initial)
    (hlimit : c.reconnectMaxDelayMs = b.limit) (hordered : b.initial ≤ b.limit)
    (hcurrent : c.reconnectCurrentDelayMs = b.delay streak) (hidle : c.clientConn = none)
    (nowMs : Int) :
    ∃ streak' due', Waits b (c.scheduleReconnect nowMs).1 streak' due' ∧
      ∀ rest, b.Paced streak' due' rest →
        b.Paced streak none ((c.scheduleReconnect nowMs).2 ++ rest) := by
  unfold scheduleReconnect
  split
  · next hquiet =>
    refine ⟨streak, none, ⟨hinitial, hlimit, hordered, hcurrent, fun _ => rfl, ?_⟩,
      fun rest hrest => hrest⟩
    intro _ henabled hrunning
    dsimp only at henabled hrunning
    simp [henabled, hrunning] at hquiet
  · refine ⟨streak + 1, some (nowMs + c.reconnectCurrentDelayMs),
      ⟨hinitial, hlimit, hordered, ?_, ?_, fun _ _ _ => rfl⟩, fun rest hrest => ?_⟩
    · have hle : b.delay streak ≤ b.limit := Nat.min_le_right _ _
      rw [Backoff.delay_succ]
      dsimp only
      rw [hlimit, hcurrent]
      split
      · split <;> omega
      · omega
    · dsimp only
      rw [hidle]
      exact fun hsome => absurd hsome Bool.false_ne_true
    · exact ⟨rfl, hcurrent, hrest⟩

theorem waits_tick (hwaits : Waits b c streak due) (nowMs : Int) (answers : StartAnswers) :
    ∃ streak' due', Waits b (c.tick nowMs answers).1 streak' due' ∧
      ∀ rest, b.Paced streak' due' rest →
        b.Paced streak due ((c.tick nowMs answers).2 ++ rest) := by
  unfold tick
  split
  · next hdue =>
    simp only [Bool.and_eq_true, Option.isNone_iff_eq_none, Bool.not_eq_true',
      decide_eq_true_eq] at hdue
    obtain ⟨⟨⟨hidle, henabled⟩, hrunning⟩, htime⟩ := hdue
    have hstart := hwaits.idle hidle henabled hrunning
    simp only
    have hspec := startConnection_spec
      { c with reconnectAttempts := c.reconnectAttempts + 1, reconnectInProgress := true } answers
    rcases hstarted : startConnection
      { c with reconnectAttempts := c.reconnectAttempts + 1, reconnectInProgress := true } answers
      with ⟨started, ok⟩
    rw [hstarted] at hspec
    obtain ⟨hpacing, hconn⟩ := hspec
    simp only [pacing, Prod.mk.injEq] at hpacing
    obtain ⟨-, -, -, hinitial, hlimit, hcurrent, -⟩ := hpacing
    cases ok with
    | true =>
        refine ⟨streak, none, ⟨hinitial.trans hwaits.initial, hlimit.trans hwaits.limit,
          hwaits.ordered, hcurrent.trans hwaits.current, fun _ => rfl, ?_⟩,
          fun rest hrest => ⟨⟨_, hstart, htime⟩, hrest⟩⟩
        intro hnone
        rw [if_pos rfl, hnone] at hconn
        cases hconn
    | false =>
        obtain ⟨streak', due', hnext, hpaced⟩ := waits_scheduleReconnect
          (c := { started with
            reconnectFailed := started.reconnectFailed + 1, reconnectInProgress := false })
          (hinitial.trans hwaits.initial) (hlimit.trans hwaits.limit) hwaits.ordered
          (hcurrent.trans hwaits.current) (hconn.trans hidle) nowMs
        exact ⟨streak', due', hnext, fun rest hrest => ⟨⟨_, hstart, htime⟩, hpaced rest hrest⟩⟩
  · exact ⟨streak, due, hwaits, fun rest hrest => hrest⟩

theorem waits_maybeEmitConnected (hwaits : Waits b c streak due) :
    ∃ streak' due', Waits b c.maybeEmitConnected.1 streak' due' ∧
      ∀ rest, b.Paced streak' due' rest →
        b.Paced streak due (c.maybeEmitConnected.2 ++ rest) := by
  unfold maybeEmitConnected
  split
  · exact ⟨streak, due, hwaits, fun rest hrest => hrest⟩
  next conn hconn =>
  split
  · exact ⟨streak, due, hwaits, fun rest hrest => hrest⟩
  have hnone := hwaits.busy (by rw [hconn]; rfl)
  simp only
  split
  · refine ⟨0, due, ⟨hwaits.initial, hwaits.limit, hwaits.ordered, ?_, fun _ => hnone,
      fun hidle => (by cases hidle)⟩, fun rest hrest => hrest⟩
    dsimp only
    rw [hwaits.initial, Backoff.delay, Nat.pow_zero, Nat.mul_one,
      Nat.min_eq_left hwaits.ordered]
  · exact ⟨streak, due, ⟨hwaits.initial, hwaits.limit, hwaits.ordered, hwaits.current,
      fun _ => hnone, fun hidle => (by cases hidle)⟩, fun rest hrest => hrest⟩

/-- A change of the connection's own state is none of the pace. -/
theorem Waits.map (hwaits : Waits b c streak due) (f : ClientConn → ClientConn) :
    Waits b { c with clientConn := c.clientConn.map f } streak due where
  initial := hwaits.initial
  limit := hwaits.limit
  ordered := hwaits.ordered
  current := hwaits.current
  busy := fun hsome => hwaits.busy (by simpa using hsome)
  idle := fun hnone => hwaits.idle (by simpa using hnone)

theorem waits_step (hwaits : Waits b c streak due) (op : Op) :
    ∃ streak' due', Waits b (c.apply op) streak' due' ∧
      ∀ rest, b.Paced streak' due' rest → b.Paced streak due ((c.step op).2 ++ rest) := by
  cases op with
  | tick nowMs answers => exact waits_tick hwaits nowMs answers
  | quicReady => exact waits_maybeEmitConnected (hwaits.map _)
  | helloReceived => exact waits_maybeEmitConnected (hwaits.map _)
  | closed nowMs =>
      simp only [apply, step]
      split
      · exact ⟨streak, due, hwaits, fun rest hrest => hrest⟩
      · next hsome =>
        have hnone := hwaits.busy (by simpa [Option.isSome_iff_ne_none] using hsome)
        subst hnone
        exact waits_scheduleReconnect
          (c := { c with clientConn := none, connectionsClosed := c.connectionsClosed + 1 })
          hwaits.initial hwaits.limit hwaits.ordered hwaits.current rfl nowMs
  | shutdown =>
      refine ⟨streak, due, ⟨hwaits.initial, hwaits.limit, hwaits.ordered, hwaits.current,
        hwaits.busy, fun _ _ hrunning => ?_⟩, fun rest hrest => hrest⟩
      cases hrunning

theorem paced_history (hwaits : Waits b c streak due) (ops : List Op) :
    b.Paced streak due (c.history ops) := by
  induction ops generalizing c streak due with
  | nil => trivial
  | cons op rest ih =>
      obtain ⟨streak', due', hnext, hpaced⟩ := waits_step hwaits op
      exact hpaced _ (ih hnext)

theorem waits_create {initialDelayMs maxDelayMs : Nat} {enabled : Bool} {answers : StartAnswers}
    (hcreate : create initialDelayMs maxDelayMs enabled answers = some c) :
    Waits ⟨c.reconnectInitialDelayMs, c.reconnectMaxDelayMs⟩ c 0 none := by
  unfold create at hcreate
  extract_lets initial limit start at hcreate
  split at hcreate
  · cases hcreate
  next hordered =>
  have hspec := startConnection_spec start answers
  split at hcreate
  · cases hcreate
  next started hstarted =>
  cases hcreate
  rw [hstarted] at hspec
  obtain ⟨hpacing, hconn⟩ := hspec
  simp only [pacing, Prod.mk.injEq] at hpacing
  obtain ⟨-, -, -, hinitial, hlimit, hcurrent, -⟩ := hpacing
  have hle : c.reconnectInitialDelayMs ≤ c.reconnectMaxDelayMs := by
    rw [hinitial, hlimit]
    exact Nat.not_lt.mp hordered
  refine ⟨rfl, rfl, hle, ?_, fun _ => rfl, fun hnone => ?_⟩
  · rw [Backoff.delay, Nat.pow_zero, Nat.mul_one, Nat.min_eq_left hle, hcurrent, hinitial]
  · rw [if_pos rfl, hnone] at hconn
    cases hconn

/-- A client tries again no sooner than its delays let it, which double from the first to the
last and start over behind a handshake; what fails in a row takes the sum of them. -/
theorem reconnects_are_paced {initialDelayMs maxDelayMs : Nat} {enabled : Bool}
    {answers : StartAnswers} (hcreate : create initialDelayMs maxDelayMs enabled answers = some c)
    (ops : List Op) :
    let b : Backoff := ⟨c.reconnectInitialDelayMs, c.reconnectMaxDelayMs⟩
    b.Paced 0 none (c.history ops) ∧
      ∀ first last, Backoff.Within last first (c.history ops) →
        Backoff.Event.completed ∉ c.history ops →
          first + b.total 0 ((c.history ops).countP Backoff.isAttempt) ≤ last := by
  have hpaced := paced_history (waits_create hcreate) ops
  exact ⟨hpaced, fun first last hwithin hnone => (Backoff.elapsed hpaced hwithin hnone).1 rfl⟩

def answering : StartAnswers := ⟨true, true, true, true, true⟩

def startedClient : Client where
  reconnectEnabled := true
  reconnectInitialDelayMs := 100
  reconnectMaxDelayMs := 300
  reconnectCurrentDelayMs := 100
  clientConn := some { id := 1, masterId := 0 }
  nextConnId := 2
  nextMasterId := 1
  masterIds := [0]

/-- Lost at 1000, refused at 1100, lost again. -/
def unluckyRun : List Op :=
  [.closed 1000, .tick 1050 answering, .tick 1100 ⟨true, true, true, false, true⟩,
    .tick 1299 answering, .tick 1300 answering, .closed 1310]

theorem unlucky_is_paced :
    startedClient.history unluckyRun =
        [.scheduled 1000 100, .attempted 1100, .scheduled 1100 200, .attempted 1300,
          .scheduled 1310 300] ∧
      1000 + (⟨100, 300⟩ : Backoff).total 0 2 ≤ (1310 : Int) := by
  have hcreate : create 100 300 true answering = some startedClient := by decide
  have hhistory : startedClient.history unluckyRun = [.scheduled 1000 100, .attempted 1100,
      .scheduled 1100 200, .attempted 1300, .scheduled 1310 300] := by decide
  have htime := (reconnects_are_paced hcreate unluckyRun).2 1000 1310
  rw [hhistory] at htime
  exact ⟨hhistory, htime (by simp [Backoff.Within]) (by decide)⟩

/-! ### The account, and the end -/

/-- Each attempt is counted once: it succeeded, failed, or has not ended.  A master CID is not
used twice. -/
structure Accounted (c : Client) (attempts created : Nat) : Prop where
  counted : c.reconnectAttempts = attempts
  ended : c.reconnectSucceeded + c.reconnectFailed + (if c.reconnectInProgress then 1 else 0) ≤
    attempts
  named : c.masterIds = ((List.range created).map (· % connectionIds)).reverse
  next : c.nextMasterId = created % connectionIds

theorem accounted_startConnection (haccounted : Accounted c attempts created)
    (answers : StartAnswers) :
    ∃ created' ≤ created + 1, Accounted (c.startConnection answers).1 attempts created' := by
  obtain ⟨hattempts, hended, hnamed, hnext⟩ := haccounted
  unfold startConnection
  split
  · exact ⟨created, Nat.le_succ _, hattempts, hended, hnamed, hnext⟩
  simp only
  split
  · exact ⟨created, Nat.le_succ _, hattempts, hended, hnamed, hnext⟩
  have hcreated : ∀ conn, Accounted
      { c with
        clientConn := conn
        nextConnId := (c.nextConnId + 1) % connectionIds
        nextMasterId := (c.nextMasterId + 1) % connectionIds
        masterIds := c.nextMasterId :: c.masterIds } attempts (created + 1) := by
    intro conn
    refine ⟨hattempts, hended, ?_, ?_⟩
    · dsimp only
      rw [hnamed, hnext, List.range_succ, List.map_append, List.reverse_append]
      rfl
    · dsimp only
      rw [hnext, Nat.mod_add_mod]
  split
  · exact ⟨created + 1, Nat.le_refl _, hcreated _⟩
  · exact ⟨created + 1, Nat.le_refl _, hcreated _⟩

theorem accounted_scheduleReconnect (haccounted : Accounted c attempts created) (nowMs : Int) :
    Accounted (c.scheduleReconnect nowMs).1 attempts created ∧
      (c.scheduleReconnect nowMs).2.countP Backoff.isAttempt = 0 := by
  obtain ⟨hattempts, hended, hnamed, hnext⟩ := haccounted
  unfold scheduleReconnect
  split
  · exact ⟨⟨hattempts, hended, hnamed, hnext⟩, rfl⟩
  · exact ⟨⟨hattempts, hended, hnamed, hnext⟩, rfl⟩

theorem accounted_maybeEmitConnected (haccounted : Accounted c attempts created) :
    Accounted c.maybeEmitConnected.1 attempts created ∧
      c.maybeEmitConnected.2.countP Backoff.isAttempt = 0 := by
  obtain ⟨hattempts, hended, hnamed, hnext⟩ := haccounted
  unfold maybeEmitConnected
  split
  · exact ⟨⟨hattempts, hended, hnamed, hnext⟩, rfl⟩
  split
  · exact ⟨⟨hattempts, hended, hnamed, hnext⟩, rfl⟩
  simp only
  split
  · next hprogress =>
    rw [if_pos hprogress] at hended
    refine ⟨⟨hattempts, ?_, hnamed, hnext⟩, rfl⟩
    simp only [Bool.false_eq_true, if_false]
    omega
  · exact ⟨⟨hattempts, hended, hnamed, hnext⟩, rfl⟩

theorem accounted_tick (haccounted : Accounted c attempts created) (nowMs : Int)
    (answers : StartAnswers) :
    ∃ created' ≤ created + 1, Accounted (c.tick nowMs answers).1
      (attempts + (c.tick nowMs answers).2.countP Backoff.isAttempt) created' := by
  unfold tick
  split
  · have htried : Accounted
        { c with reconnectAttempts := c.reconnectAttempts + 1, reconnectInProgress := true }
        (attempts + 1) created := by
      obtain ⟨hattempts, hended, hnamed, hnext⟩ := haccounted
      refine ⟨congrArg (· + 1) hattempts, ?_, hnamed, hnext⟩
      simp only [if_true]
      omega
    obtain ⟨created', hcreated, hstarted⟩ := accounted_startConnection htried answers
    simp only
    split
    · next started hresult =>
      rw [hresult] at hstarted
      exact ⟨created', hcreated, hstarted⟩
    · next started hresult =>
      rw [hresult] at hstarted
      have hpacing := (startConnection_spec
        { c with reconnectAttempts := c.reconnectAttempts + 1, reconnectInProgress := true }
        answers).1
      rw [hresult] at hpacing
      simp only [pacing, Prod.mk.injEq] at hpacing
      have hfailed : Accounted
          { started with
            reconnectFailed := started.reconnectFailed + 1, reconnectInProgress := false }
          (attempts + 1) created' := by
        obtain ⟨hattempts, hended, hnamed, hnext⟩ := hstarted
        refine ⟨hattempts, ?_, hnamed, hnext⟩
        rw [hpacing.2.2.1, if_pos rfl] at hended
        simp only [Bool.false_eq_true, if_false]
        omega
      obtain ⟨hscheduled, hnone⟩ := accounted_scheduleReconnect hfailed nowMs
      refine ⟨created', hcreated, ?_⟩
      rw [List.countP_cons_of_pos rfl, hnone]
      exact hscheduled
  · exact ⟨created, Nat.le_succ _, haccounted⟩

theorem accounted_step (haccounted : Accounted c attempts created) (op : Op) :
    ∃ created' ≤ created + 1,
      Accounted (c.apply op) (attempts + (c.step op).2.countP Backoff.isAttempt) created' := by
  cases op with
  | tick nowMs answers => exact accounted_tick haccounted nowMs answers
  | quicReady =>
      have hmapped : Accounted
          { c with clientConn := c.clientConn.map fun conn => { conn with quicReady := true } }
          attempts created :=
        ⟨haccounted.counted, haccounted.ended, haccounted.named, haccounted.next⟩
      obtain ⟨hnext, hnone⟩ := accounted_maybeEmitConnected hmapped
      refine ⟨created, Nat.le_succ _, ?_⟩
      rw [step, hnone]
      exact hnext
  | helloReceived =>
      have hmapped : Accounted
          { c with clientConn := c.clientConn.map fun conn => { conn with protocolReady := true } }
          attempts created :=
        ⟨haccounted.counted, haccounted.ended, haccounted.named, haccounted.next⟩
      obtain ⟨hnext, hnone⟩ := accounted_maybeEmitConnected hmapped
      refine ⟨created, Nat.le_succ _, ?_⟩
      rw [step, hnone]
      exact hnext
  | closed nowMs =>
      refine ⟨created, Nat.le_succ _, ?_⟩
      simp only [apply, step]
      split
      · exact haccounted
      · have hclosed : Accounted
            { c with clientConn := none, connectionsClosed := c.connectionsClosed + 1 }
            attempts created :=
          ⟨haccounted.counted, haccounted.ended, haccounted.named, haccounted.next⟩
        obtain ⟨hnext, hnone⟩ := accounted_scheduleReconnect hclosed nowMs
        rw [hnone]
        exact hnext
  | shutdown =>
      refine ⟨created, Nat.le_succ _, haccounted.counted, ?_, haccounted.named, haccounted.next⟩
      have hended := haccounted.ended
      simp only [apply, step, Bool.false_eq_true, if_false]
      exact (Nat.le_add_right ..).trans (hended.trans (Nat.le_add_right ..))

theorem accounted_run (haccounted : Accounted c attempts created) (ops : List Op) :
    ∃ created' ≤ created + ops.length,
      Accounted (c.run ops) (attempts + (c.history ops).countP Backoff.isAttempt) created' := by
  induction ops generalizing c attempts created with
  | nil => exact ⟨created, Nat.le_refl _, haccounted⟩
  | cons op rest ih =>
      obtain ⟨middle, hmiddle, hstep⟩ := accounted_step haccounted op
      obtain ⟨created', hcreated, hrun⟩ := ih hstep
      refine ⟨created', ?_, ?_⟩
      · rw [List.length_cons]
        omega
      · rw [history, List.countP_append, ← Nat.add_assoc]
        exact hrun

theorem accounted_create {initialDelayMs maxDelayMs : Nat} {enabled : Bool}
    {answers : StartAnswers} (hcreate : create initialDelayMs maxDelayMs enabled answers = some c) :
    ∃ created ≤ 1, Accounted c 0 created := by
  unfold create at hcreate
  extract_lets initial limit start at hcreate
  split at hcreate
  · cases hcreate
  have hstart : Accounted start 0 0 := ⟨rfl, Nat.le_refl _, rfl, rfl⟩
  obtain ⟨created, hcreated, hstarted⟩ := accounted_startConnection hstart answers
  split at hcreate
  · cases hcreate
  next started hresult =>
  cases hcreate
  rw [hresult] at hstarted
  exact ⟨created, hcreated, hstarted⟩

/-- Behind a shutdown. -/
structure Quiet (c : Client) : Prop where
  down : c.shuttingDown = true
  idle : c.reconnectInProgress = false

theorem quiet_maybeEmitConnected (hquiet : Quiet c) :
    c.maybeEmitConnected.2 = [] ∧ Quiet c.maybeEmitConnected.1 ∧
      (c.clientConn = none → c.maybeEmitConnected.1.clientConn = none) := by
  unfold maybeEmitConnected
  split
  · exact ⟨rfl, hquiet, id⟩
  next conn hconn =>
  split
  · exact ⟨rfl, hquiet, id⟩
  · simp only
    rw [if_neg (by rw [hquiet.idle]; exact Bool.false_ne_true)]
    refine ⟨rfl, ⟨hquiet.down, hquiet.idle⟩, fun hnone => ?_⟩
    rw [hconn] at hnone
    cases hnone

/-- Nothing is tried again, and a connection that ends is not replaced. -/
theorem quiet_step (hquiet : Quiet c) (op : Op) :
    (c.step op).2 = [] ∧ Quiet (c.apply op) ∧
      (c.clientConn = none → (c.apply op).clientConn = none) := by
  cases op with
  | tick nowMs answers =>
      have htick : c.step (.tick nowMs answers) = (c, []) := if_neg (by simp [hquiet.down])
      rw [apply, htick]
      exact ⟨rfl, hquiet, id⟩
  | quicReady =>
      obtain ⟨hnone, hnext, hconn⟩ := @quiet_maybeEmitConnected
        { c with clientConn := c.clientConn.map fun conn => { conn with quicReady := true } }
        ⟨hquiet.down, hquiet.idle⟩
      exact ⟨hnone, hnext, fun hempty => hconn (by simp [hempty])⟩
  | helloReceived =>
      obtain ⟨hnone, hnext, hconn⟩ := @quiet_maybeEmitConnected
        { c with clientConn := c.clientConn.map fun conn => { conn with protocolReady := true } }
        ⟨hquiet.down, hquiet.idle⟩
      exact ⟨hnone, hnext, fun hempty => hconn (by simp [hempty])⟩
  | closed nowMs =>
      simp only [apply, step, scheduleReconnect]
      split
      · exact ⟨rfl, hquiet, id⟩
      · rw [if_pos (by simp [hquiet.down])]
        exact ⟨rfl, ⟨hquiet.down, hquiet.idle⟩, fun _ => rfl⟩
  | shutdown => exact ⟨rfl, ⟨rfl, rfl⟩, id⟩

theorem quiet_run (hquiet : Quiet c) (ops : List Op) :
    c.history ops = [] ∧ (c.clientConn = none → (c.run ops).clientConn = none) := by
  induction ops generalizing c with
  | nil => exact ⟨rfl, id⟩
  | cons op rest ih =>
      obtain ⟨hnone, hnext, hconn⟩ := quiet_step hquiet op
      obtain ⟨hrest, hgone⟩ := ih hnext
      refine ⟨?_, fun hempty => hgone (hconn hempty)⟩
      rw [history, hnone, hrest]
      rfl

/-- Over a client's life every attempt is counted and none ends twice, no master CID comes back
within the ids' range, and a shutdown ends it for good. -/
theorem attempts_add_up {initialDelayMs maxDelayMs : Nat} {enabled : Bool} {answers : StartAnswers}
    (hcreate : create initialDelayMs maxDelayMs enabled answers = some c) (ops later : List Op) :
    (c.run ops).reconnectAttempts = (c.history ops).countP Backoff.isAttempt ∧
      (c.run ops).reconnectSucceeded + (c.run ops).reconnectFailed +
        (if (c.run ops).reconnectInProgress then 1 else 0) ≤ (c.run ops).reconnectAttempts ∧
      (ops.length < connectionIds → (c.run ops).masterIds.Nodup) ∧
      ((c.run ops).apply .shutdown).history later = [] ∧
      ((c.run ops).clientConn = none →
        (((c.run ops).apply .shutdown).run later).clientConn = none) := by
  obtain ⟨started, hstarted, hstart⟩ := accounted_create hcreate
  obtain ⟨created, hcreated, hcounted, hended, hnamed, -⟩ := accounted_run hstart ops
  rw [Nat.zero_add] at hcounted hended
  have hdown : Quiet ((c.run ops).apply .shutdown) := ⟨rfl, rfl⟩
  obtain ⟨hquiet, hgone⟩ := quiet_run hdown later
  refine ⟨hcounted, hcounted ▸ hended, fun hless => ?_, hquiet, hgone⟩
  rw [hnamed]
  refine List.nodup_reverse.mpr (List.Nodup.map_on (fun first hfirst second hsecond heq => ?_)
    List.nodup_range)
  have hbelow := List.mem_range.mp hfirst
  have hbelow' := List.mem_range.mp hsecond
  rwa [Nat.mod_eq_of_lt (by omega), Nat.mod_eq_of_lt (by omega)] at heq

theorem unlucky_attempts_add_up :
    (startedClient.run unluckyRun).reconnectAttempts = 2 ∧
      (startedClient.run unluckyRun).masterIds.Nodup ∧
      ((startedClient.run unluckyRun).apply .shutdown).history [.tick 2000 answering] = [] := by
  have hcreate : create 100 300 true answering = some startedClient := by decide
  obtain ⟨hattempts, -, hnodup, hquiet, -⟩ :=
    attempts_add_up hcreate unluckyRun [.tick 2000 answering]
  exact ⟨hattempts.trans (by decide), hnodup (by decide), hquiet⟩

end Client

end Qlinq
