import Qlinq.UdsFanOut

namespace Qlinq

/-! Every connection of the listener, over any order of arrivals, readiness and
answers. -/

/-! ### The daemon's answers in a turn -/

/-- The callback of every turn is the daemon's. -/
def InputEnv.ByDaemon (env : InputEnv) (d : Daemon) : Prop :=
  ∃ publish : Nat → UdsRecord → Nat → PublishResult,
    env.answer = fun frame => d.onDataPacket (publish frame)

namespace Daemon

/-- The progress of the record on offer is the transports that took it. -/
def Tracks (d : Daemon) (s : InputState) : Prop :=
  ∃ served, d.Distributed s.offers served ∧
    if s.client.pendingRecord then ∀ i, s.client.progress.testBit i = decide (i ∈ served)
    else served = []

def TracksStopped (d : Daemon) : InputState × InputStop → Prop
  | (s, .idle) => d.Tracks s
  | (s, .closed _) => ∃ served, d.Distributed s.offers served

/-- The state keeps what the fan-out depends on. -/
structure SameOffers (s s' : InputState) : Prop where
  offers : s'.offers = s.offers
  pending : s'.client.pendingRecord = s.client.pendingRecord
  progress : s'.client.progress = s.client.progress

theorem Tracks.of_same {d : Daemon} {s s' : InputState} (htracks : d.Tracks s)
    (hsame : SameOffers s s') : d.Tracks s' := by
  unfold Tracks
  rw [hsame.offers, hsame.pending, hsame.progress]
  exact htracks

theorem Tracks.stops {d : Daemon} {s : InputState} (htracks : d.Tracks s) (stop : InputStop) :
    Leads d.TracksStopped Next (.error (s, stop)) := by
  cases stop with
  | idle => exact htracks
  | closed reason =>
      obtain ⟨served, hserved, -⟩ := htracks
      exact ⟨served, hserved⟩

theorem Tracks.reading {d : Daemon} {s : InputState} {client : UdsClient}
    (htracks : d.Tracks s) (hpending : client.pendingRecord = s.client.pendingRecord)
    (hprogress : client.progress = s.client.progress) (read : ReadResult) :
    Leads d.TracksStopped d.Tracks ((s.reading client read).settle read.code) := by
  have hread : d.Tracks (s.reading client read) := htracks.of_same ⟨rfl, hpending, hprogress⟩
  cases read.code with
  | filled => exact hread
  | later => exact hread.stops .idle
  | ended => exact hread.stops (.closed .ended)
  | failed => exact hread.stops (.closed .failed)

theorem Tracks.registrationParse {d : Daemon} {s : InputState} (htracks : d.Tracks s) :
    Leads d.TracksStopped d.Tracks s.registrationParse := by
  unfold InputState.registrationParse
  split
  · split
    · exact htracks.stops _
    · extract_lets needed client
      split <;> exact htracks.of_same ⟨rfl, rfl, rfl⟩
  · exact htracks.of_same ⟨rfl, rfl, rfl⟩

theorem Tracks.headerParse {d : Daemon} {s : InputState} (htracks : d.Tracks s)
    (allocated : Bool) : Leads d.TracksStopped d.Tracks (s.headerParse allocated) := by
  unfold InputState.headerParse
  split
  · extract_lets client
    have hclient : ∀ capacity, d.Tracks (s.setClient (client.setCapacity capacity)) :=
      fun _ => htracks.of_same ⟨rfl, rfl, rfl⟩
    split
    · exact (hclient client.payloadCapacity).stops _
    split
    · split
      · exact hclient _
      · exact (hclient client.payloadCapacity).stops _
    · exact hclient client.payloadCapacity
  · exact htracks

theorem Tracks.begin {d : Daemon} {s : InputState} (htracks : d.Tracks s) :
    ∃ served, d.Distributed s.beginRecord.offers served ∧
      ∀ i, s.beginRecord.client.progress.testBit i = decide (i ∈ served) := by
  obtain ⟨served, hserved, hbits⟩ := htracks
  unfold InputState.beginRecord
  split at hbits
  · next hpending =>
    rw [if_pos hpending]
    exact ⟨served, hserved, hbits⟩
  · next hfresh =>
    rw [if_neg hfresh]
    subst hbits
    exact ⟨[], hserved, by simp [UdsClient.begin]⟩

theorem Tracks.offerRecord {d : Daemon} {s : InputState} (htracks : d.Tracks s)
    (publish : UdsRecord → Nat → PublishResult) :
    Leads d.TracksStopped d.Tracks (s.beginRecord.offerRecord (d.onDataPacket publish)) := by
  obtain ⟨served, hserved, hbits⟩ := htracks.begin
  have hpending := (begun_beginRecord s).pending
  generalize s.beginRecord = s' at hserved hbits hpending ⊢
  obtain ⟨served', hstep, hbits'⟩ :=
    distribute_onDataPacket d publish s'.client.record hbits
  unfold InputState.offerRecord
  extract_lets given
  change d.distribute served ⟨_, _, given⟩ = _ at hstep
  have hlog : d.Distributed (s'.logOffer given).offers
      (if given.result = .retry then served' else []) := by
    change Replay.replay d.distribute [] (s'.offers ++ [_]) = _
    rw [Replay.replay_snoc, hserved]
    exact hstep
  cases hresult : given.result with
  | retry =>
      refine ⟨served', by simpa [hresult] using hlog, ?_⟩
      rw [if_pos (show (s'.logOffer given).client.pendingRecord = true from hpending)]
      exact hbits'
  | fatal => exact ⟨_, hlog⟩
  | accepted =>
      rw [if_neg (by simp [hresult])] at hlog
      exact ⟨[], hlog, rfl⟩

theorem Tracks.turn {d : Daemon} {s : InputState} {env : InputEnv} (htracks : d.Tracks s)
    (henv : env.ByDaemon d) (frame : Nat) :
    Leads d.TracksStopped d.Tracks (s.turn env frame) := by
  obtain ⟨publish, hanswer⟩ := henv
  unfold InputState.turn
  split
  · have hread : Leads d.TracksStopped d.Tracks s.registrationRead := by
      refine htracks.reading ?_ ?_ _ <;> rfl
    exact hread.bind fun s htracks => htracks.registrationParse
  split
  · exact htracks.stops _
  · have hheader : Leads d.TracksStopped d.Tracks s.headerRead := by
      refine htracks.reading ?_ ?_ _ <;> rfl
    refine hheader.bind fun s htracks => (htracks.headerParse _).bind fun s htracks => ?_
    have hpayload : Leads d.TracksStopped d.Tracks s.payloadRead := by
      refine htracks.reading ?_ ?_ _ <;> rfl
    refine hpayload.bind fun s htracks => ?_
    rw [hanswer]
    exact htracks.offerRecord (publish frame)

theorem Tracks.turns {d : Daemon} {s : InputState} {env : InputEnv} (htracks : d.Tracks s)
    (henv : env.ByDaemon d) (count frame : Nat) :
    d.TracksStopped (s.turns env count frame) := by
  induction count generalizing s frame with
  | zero => exact htracks
  | succ count ih =>
      have hturn := htracks.turn henv frame
      rw [InputState.turns]
      cases hnext : s.turn env frame with
      | error stopped =>
          rw [hnext] at hturn
          exact hturn
      | ok s' =>
          rw [hnext] at hturn
          exact ih hturn (frame + 1)

end Daemon

/-! ### Connections -/

namespace UdsSession

def arrive (session : UdsSession) (data : Bytes) : UdsSession :=
  { session with
    sent := session.sent ++ data
    socket := { session.socket with unread := session.socket.unread ++ data } }

def finish (session : UdsSession) : UdsSession :=
  { session with socket := { session.socket with ended := true } }

def close (session : UdsSession) : UdsSession := { session with closed := some .failed }

end UdsSession

/-- What holds of a connection that begins and survives all that can happen to
it, while `Ok` holds of the rest of the program. -/
structure SessionInvariant (Ok : InputEnv → Prop) (Inv : UdsSession → Prop) : Prop where
  fresh : Inv {}
  arrive : ∀ {session} data, session.closed = none → Inv session → Inv (session.arrive data)
  finish : ∀ {session}, session.closed = none → Inv session → Inv session.finish
  process : ∀ {session} nextRecordId reads {env}, Ok env → session.closed = none →
    Inv session → Inv (DataUds.processSession nextRecordId session reads env).1
  close : ∀ {session}, session.closed = none → Inv session → Inv session.close

namespace DataUds

def Op.Meets (Ok : InputEnv → Prop) : Op → Prop
  | .process _ _ env => Ok env
  | _ => True

def AllSessions (Inv : UdsSession → Prop) (d : DataUds) : Prop :=
  ∀ slot session, d.sessions slot = some session → Inv session

theorem allSessions_setSession {Inv : UdsSession → Prop} {d : DataUds}
    {session : UdsSession} (hall : AllSessions Inv d) (hsession : Inv session)
    (slot : Nat) : AllSessions Inv (d.setSession slot session) := by
  intro other found hfound
  simp only [setSession, Function.update_apply] at hfound
  split at hfound
  · obtain rfl := Option.some.inj hfound
    exact hsession
  · exact hall other found hfound

theorem allSessions_apply {Ok : InputEnv → Prop} {Inv : UdsSession → Prop}
    (hinv : SessionInvariant Ok Inv) {d : DataUds} (hall : AllSessions Inv d) {op : Op}
    (hop : op.Meets Ok) : AllSessions Inv (d.apply op) := by
  have hopen : ∀ {session : UdsSession}, ¬ session.closed.isSome = true →
      session.closed = none := fun h => by simpa using h
  cases op with
  | accept slot =>
      simp only [apply]
      split
      · split
        · exact allSessions_setSession hall hinv.fresh slot
        · exact hall
      · split
        · exact allSessions_setSession hall hinv.fresh slot
        · exact hall
  | arrive slot data =>
      simp only [apply]
      split
      · next session hsession =>
        split
        · exact hall
        · next hlive =>
          exact allSessions_setSession hall
            (hinv.arrive data (hopen (not_or.mp hlive).1) (hall _ _ hsession)) slot
      · exact hall
  | finish slot =>
      simp only [apply]
      split
      · next session hsession =>
        split
        · exact hall
        · next hlive =>
          exact allSessions_setSession hall
            (hinv.finish (hopen hlive) (hall _ _ hsession)) slot
      · exact hall
  | process slot reads env =>
      simp only [apply]
      split
      · next session hsession =>
        split
        · exact hall
        · next hlive =>
          exact allSessions_setSession hall
            (hinv.process d.nextRecordId reads hop (hopen hlive) (hall _ _ hsession)) slot
      · exact hall
  | close slot =>
      simp only [apply]
      split
      · next session hsession =>
        split
        · exact hall
        · next hlive =>
          exact allSessions_setSession hall
            (hinv.close (hopen hlive) (hall _ _ hsession)) slot
      · exact hall

theorem allSessions_run {Ok : InputEnv → Prop} {Inv : UdsSession → Prop}
    (hinv : SessionInvariant Ok Inv) {ops : List Op} (hops : ∀ op ∈ ops, op.Meets Ok) :
    AllSessions Inv (run ops) := by
  have halong : Machine.Along apply (fun _ op => op.Meets Ok) {} ops :=
    Machine.along_of_forall_mem (fun _ op hop => hops op hop) _
  exact Machine.invariant_run (fun _ op hall hop => allSessions_apply hinv hall hop)
    (by intro slot session hsession; simp at hsession) halong

end DataUds

/-! ### Each connection hands over its parse -/

theorem Resting.arrive {s s' : InputState} (hresting : Resting sent s) {data : Bytes}
    (hclient : s'.client = s.client) (hoffers : s'.offers = s.offers)
    (hunread : s'.socket.unread = s.socket.unread ++ data) : Resting (sent ++ data) s' := by
  rcases hresting with ⟨hreg, hshort⟩ | ⟨taken, hserving, hlog, hbetween⟩
  · refine .inl ⟨?_, by rw [hclient]; exact hshort⟩
    obtain ⟨hunregistered, hsplit, hnone, hheader, hsize, hpayload, hpending, hneeded,
      hbounded⟩ := hreg
    refine ⟨?_, ?_, hoffers.trans hnone, ?_, ?_, ?_, ?_, ?_, ?_⟩
    · rw [hclient]; exact hunregistered
    · rw [hsplit, hclient, hunread, List.append_assoc]
    · rw [hclient]; exact hheader
    · rw [hclient]; exact hsize
    · rw [hclient]; exact hpayload
    · rw [hclient]; exact hpending
    · rw [hclient]; exact hneeded
    · rw [hclient]; exact hbounded
  · refine .inr ⟨taken, ⟨by rw [hclient]; exact hserving.registered, ?_,
      by rw [hclient]; exact hserving.tracks⟩, by rw [hclient, hoffers]; exact hlog,
      by rw [hclient]; exact hbetween⟩
    obtain ⟨reg, body, hsent, haccepted, hlen, htrack, hbody⟩ := hserving.split
    rw [hclient, hunread]
    refine ⟨reg, body, ?_, haccepted, hlen, htrack, hbody⟩
    rw [hsent]
    simp only [List.append_assoc]

theorem Resting.same {s s' : InputState} (hresting : Resting sent s)
    (hclient : s'.client = s.client) (hoffers : s'.offers = s.offers)
    (hunread : s'.socket.unread = s.socket.unread) : Resting sent s' := by
  have harrive : Resting (sent ++ []) s' := hresting.arrive hclient hoffers
    (by rw [hunread, List.append_nil])
  rwa [List.append_nil] at harrive

theorem Resting.ingested {s : InputState} (hresting : Resting sent s) :
    ∃ taken pending, Ingested sent s.socket.unread s.offers none taken pending := by
  rcases hresting with ⟨hreg, hshort⟩ | ⟨taken, hserving, hoffers, hbetween⟩
  · exact ⟨_, _, hreg.ingested hshort⟩
  · exact ⟨_, _, ingested_open hserving hoffers hbetween⟩

theorem Resting.ingested_failed {s : InputState} (hresting : Resting sent s) :
    ∃ taken pending, Ingested sent s.socket.unread s.offers (some .failed) taken pending := by
  rcases hresting with ⟨hreg, -⟩ | ⟨taken, hserving, hoffers, hbetween⟩
  · refine ⟨[], none, ?_⟩
    rw [hreg.offers]
    exact ingested_unregistered (by simp)
  · exact ⟨_, _, Qlinq.ingested_failed hserving hoffers hbetween⟩

namespace UdsSession

def HandsOverParse (session : UdsSession) : Prop :=
  ∃ taken pending, Ingested session.sent session.socket.unread session.offers session.closed
    taken pending

def Serviced (session : UdsSession) : Prop :=
  match session.closed with
  | none => Resting session.sent (session.input 0 [])
  | some _ => session.HandsOverParse

theorem Serviced.handsOverParse {session : UdsSession} (hserviced : session.Serviced) :
    session.HandsOverParse := by
  unfold Serviced at hserviced
  split at hserviced
  · next hopen =>
    rw [HandsOverParse, hopen]
    exact hserviced.ingested
  · exact hserviced

theorem Serviced.resting {session : UdsSession} (hserviced : session.Serviced)
    (hopen : session.closed = none) : Resting session.sent (session.input 0 []) := by
  unfold Serviced at hserviced
  rw [hopen] at hserviced
  exact hserviced

theorem serviced_of_resting {session : UdsSession} (hopen : session.closed = none)
    (hresting : Resting session.sent (session.input 0 [])) : session.Serviced := by
  unfold Serviced
  rw [hopen]
  exact hresting

theorem serviced_processSession {session : UdsSession} (hopen : session.closed = none)
    (hserviced : session.Serviced) (nextRecordId : Nat) (reads : List ReadOutcome)
    (env : InputEnv) :
    (DataUds.processSession nextRecordId session reads env).1.Serviced := by
  have hresting : Resting session.sent (session.input nextRecordId reads) :=
    (hserviced.resting hopen).same rfl rfl rfl
  have hstopped := turns_stopped hresting env 64 0
  unfold DataUds.processSession processClientInput
  cases hcall : (session.input nextRecordId reads).turns env 64 0 with
  | mk s stop =>
      rw [hcall] at hstopped
      cases stop with
      | idle =>
          have hrests : Resting session.sent s := hstopped
          exact serviced_of_resting rfl (hrests.same rfl rfl rfl)
      | closed reason => exact hstopped

theorem invariant_serviced : SessionInvariant (fun _ => True) Serviced where
  fresh := .inl ⟨⟨rfl, rfl, rfl, rfl, rfl, rfl, rfl, .inl rfl, Nat.zero_le _⟩, Nat.succ_pos _⟩
  arrive := fun _ hopen hserviced => serviced_of_resting hopen
    ((hserviced.resting hopen).arrive rfl rfl rfl)
  finish := fun hopen hserviced => serviced_of_resting hopen
    ((hserviced.resting hopen).same rfl rfl rfl)
  process := fun nextRecordId reads _ _ hopen hserviced =>
    serviced_processSession hopen hserviced nextRecordId reads _
  close := fun hopen hserviced => (hserviced.resting hopen).ingested_failed

/-! ### The daemon's transports -/

def DistributedTo (d : Daemon) (session : UdsSession) : Prop :=
  ∃ served, d.Distributed session.offers served

def TrackedBy (d : Daemon) (session : UdsSession) : Prop :=
  match session.closed with
  | none => d.Tracks (session.input 0 [])
  | some _ => session.DistributedTo d

theorem TrackedBy.distributedTo {session : UdsSession} (htracked : session.TrackedBy d) :
    session.DistributedTo d := by
  unfold TrackedBy at htracked
  split at htracked
  · obtain ⟨served, hserved, -⟩ := htracked
    exact ⟨served, hserved⟩
  · exact htracked

theorem TrackedBy.tracks {session : UdsSession} (htracked : session.TrackedBy d)
    (hopen : session.closed = none) : d.Tracks (session.input 0 []) := by
  unfold TrackedBy at htracked
  rw [hopen] at htracked
  exact htracked

theorem trackedBy_of_tracks {session : UdsSession} (hopen : session.closed = none)
    (htracks : d.Tracks (session.input 0 [])) : session.TrackedBy d := by
  unfold TrackedBy
  rw [hopen]
  exact htracks

theorem trackedBy_processSession {session : UdsSession} {env : InputEnv}
    (henv : env.ByDaemon d) (hopen : session.closed = none) (htracked : session.TrackedBy d)
    (nextRecordId : Nat) (reads : List ReadOutcome) :
    (DataUds.processSession nextRecordId session reads env).1.TrackedBy d := by
  have htracks : d.Tracks (session.input nextRecordId reads) :=
    (htracked.tracks hopen).of_same ⟨rfl, rfl, rfl⟩
  have hstopped := htracks.turns henv 64 0
  unfold DataUds.processSession processClientInput
  cases hcall : (session.input nextRecordId reads).turns env 64 0 with
  | mk s stop =>
      rw [hcall] at hstopped
      cases stop with
      | idle =>
          have htracks' : d.Tracks s := hstopped
          exact trackedBy_of_tracks rfl (htracks'.of_same ⟨rfl, rfl, rfl⟩)
      | closed reason => exact hstopped

theorem invariant_trackedBy (d : Daemon) :
    SessionInvariant (fun env => env.ByDaemon d) (TrackedBy d) where
  fresh := ⟨[], rfl, rfl⟩
  arrive := fun _ hopen htracked => trackedBy_of_tracks hopen
    ((htracked.tracks hopen).of_same ⟨rfl, rfl, rfl⟩)
  finish := fun hopen htracked => trackedBy_of_tracks hopen
    ((htracked.tracks hopen).of_same ⟨rfl, rfl, rfl⟩)
  process := fun nextRecordId reads _ henv hopen htracked =>
    trackedBy_processSession henv hopen htracked nextRecordId reads
  close := fun _ htracked => htracked.distributedTo

end UdsSession

namespace DataUds

def oneTransport : Daemon where
  numTransports := 1
  present := fun _ => true
  capped := by decide

def answering (result : PublishResult) : InputEnv where
  ready := fun _ _ => true
  allocated := fun _ => true
  answer := fun _ => oneTransport.onDataPacket fun _ _ => result

def retriedRun : List Op :=
  [.accept 0, .arrive 0 [4, 2, 1, 0x78, 3, 0, 0],
    .process 0 (.replicate 7 (.upTo 0)) (answering .delivered),
    .arrive 0 [0, 1, 7, 8, 9], .process 0 (.replicate 4 (.upTo 8)) (answering .backpressure),
    .finish 0, .process 0 [.upTo 8] (answering .delivered)]

example : ((run retriedRun).sessions 0).map (fun session =>
    (session.closed, session.offers.map fun offer => offer.answer.result)) =
      some (some .ended, [.retry, .accepted]) := by
  decide +kernel

end DataUds

end Qlinq
