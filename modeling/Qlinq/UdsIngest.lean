import Qlinq.UdsStream

namespace Qlinq

open Incremental (Collected Verdict drain)

/-! However the bytes of a connection are cut up, the records handed over are
its parse. -/

/-! ### Reading in pieces -/

/-- Bytes move from the socket to the buffer, and nowhere else. -/
structure ReadsFrom (needed : Nat) (buffer : Bytes) (socket : UdsSocket)
    (read : ReadResult) : Prop where
  moved : ∃ chunk, read.buffer = buffer ++ chunk ∧ socket.unread = chunk ++ read.socket.unread
  ended : read.socket.ended = socket.ended
  bounded : read.buffer.length ≤ max needed buffer.length
  filled : read.code = .filled ↔ needed ≤ read.buffer.length
  exhausted : read.code = .ended → read.socket.unread = []

theorem ReadsFrom.still {socket : UdsSocket} (code : ReadCode) (reads : List ReadOutcome)
    (hfilled : code = .filled ↔ needed ≤ buffer.length)
    (hexhausted : code = .ended → socket.unread = []) :
    ReadsFrom needed buffer socket ⟨buffer, code, socket, reads⟩ where
  moved := ⟨[], by simp, by simp⟩
  ended := rfl
  bounded := le_max_right ..
  filled := hfilled
  exhausted := hexhausted

theorem ReadsFrom.further {socket : UdsSocket} {read : ReadResult} {count : Nat}
    (hroom : count ≤ needed - buffer.length) (hshort : buffer.length < needed)
    (hread : ReadsFrom needed (buffer ++ socket.unread.take count)
      { socket with unread := socket.unread.drop count } read) :
    ReadsFrom needed buffer socket read where
  moved := by
    obtain ⟨chunk, hbuffer, hunread⟩ := hread.moved
    refine ⟨socket.unread.take count ++ chunk, by rw [hbuffer, List.append_assoc], ?_⟩
    rw [List.append_assoc, ← hunread, List.take_append_drop]
  ended := hread.ended
  bounded := by
    have hbounded := hread.bounded
    rw [List.length_append, List.length_take] at hbounded
    omega
  filled := hread.filled
  exhausted := hread.exhausted

theorem readNonblocking_spec (needed : Nat) (reads : List ReadOutcome) (buffer : Bytes)
    (socket : UdsSocket) :
    ReadsFrom needed buffer socket (readNonblocking needed reads buffer socket) := by
  induction reads generalizing buffer socket with
  | nil =>
      unfold readNonblocking
      split
      · next hfull => exact .still _ _ (by simp [hfull]) (by simp)
      · next hshort => exact .still _ _ (by simp [hshort]) (by simp)
  | cons outcome reads ih =>
      unfold readNonblocking
      split
      · next hfull => exact .still _ _ (by simp [hfull]) (by simp)
      next hshort =>
      cases outcome with
      | interrupted => exact ih buffer socket
      | wouldBlock => exact .still _ _ (by simp [hshort]) (by simp)
      | failed => exact .still _ _ (by simp [hshort]) (by simp)
      | upTo n =>
          simp only
          split
          · next hempty =>
            refine .still _ _ ?_ fun _ => hempty
            split <;> simp [hshort]
          · exact .further (Nat.min_le_right ..) (by omega) (ih _ _)

/-! ### What the offers hand over -/

/-- One record at a time is on offer: it is offered as it was until it is taken,
with the progress its last offer left. -/
def handOver (handed : List UdsRecord × Option (UdsRecord × Nat)) (offer : UdsOffer) :
    Option (List UdsRecord × Option (UdsRecord × Nat)) :=
  if (handed.2.getD (offer.record, 0)) = (offer.record, offer.progress) then
    match offer.answer.result with
    | .accepted => some (handed.1 ++ [offer.record], none)
    | .retry => some (handed.1, some (offer.record, offer.answer.progress))
    | .fatal => some (handed.1, none)
  else
    none

/-- The records that were taken, and the one on offer. -/
def HandedOver (offers : List UdsOffer) (taken : List UdsRecord)
    (pending : Option (UdsRecord × Nat)) : Prop :=
  Replay.replay handOver ([], none) offers = some (taken, pending)

def pendingRecords (pending : Option (UdsRecord × Nat)) : List UdsRecord :=
  (pending.map Prod.fst).toList

/-- What a connection that has sent `sent` handed over. -/
structure Ingested (sent unread : Bytes) (offers : List UdsOffer)
    (closed : Option CloseReason) (taken : List UdsRecord)
    (pending : Option (UdsRecord × Nat)) : Prop where
  handedOver : HandedOver offers taken pending
  inOrder : (taken ++ pendingRecords pending).map UdsRecord.payload <+:
    (parseStream sent).records
  tracks : ∀ record ∈ taken ++ pendingRecords pending,
    (parseStream sent).trackId = some record.trackId
  upToDate : closed = none → ∃ read, sent = read ++ unread ∧
    (parseStream read).records = (taken ++ pendingRecords pending).map UdsRecord.payload
  whole : closed = some .ended ∨ closed = some .invalid →
    pending = none ∧ (parseStream sent).records = taken.map UdsRecord.payload
  malformed : closed = some .invalid → (parseStream sent).malformed = true

/-! ### A connection between two turns -/

/-- The registration is being read. -/
structure Registering (sent : Bytes) (s : InputState) : Prop where
  unregistered : s.client.registered = false
  split : sent = s.client.registration ++ s.socket.unread
  offers : s.offers = []
  header : s.client.frameHeader = []
  size : s.client.payloadSize = 0
  payload : s.client.payload = []
  pending : s.client.pendingRecord = false
  needed : s.client.registrationNeeded = 3 ∨
    (registrationAccepted s.client.registration = true ∧ 3 ≤ s.client.registration.length ∧
      s.client.registrationNeeded = 3 + registrationNameLen s.client.registration ∧
      s.client.registrationNeeded ≠ 3)
  bounded : s.client.registration.length ≤ s.client.registrationNeeded

/-- The bytes read make up the registration, the records taken, and the record
under way. -/
structure Serving (sent : Bytes) (s : InputState) (taken : List UdsRecord) : Prop where
  registered : s.client.registered = true
  split : ∃ reg body, sent = reg ++ (body ++ (s.client.frameHeader ++ s.client.payload ++
      s.socket.unread)) ∧
    registrationAccepted reg = true ∧ reg.length = 3 + registrationNameLen reg ∧
    registrationTrack reg = s.client.trackId ∧
    drain (recordVerdict s.client.trackId) Incremental.collect {} body =
      ({ values := taken.map UdsRecord.payload }, [])
  tracks : ∀ record ∈ taken, record.trackId = s.client.trackId

/-- The header is whole and gives the record's size. -/
structure Sized (client : UdsClient) : Prop where
  header : client.frameHeader.length = udsFrameHeaderSize
  size : client.payloadSize = hostU32 (client.frameHeader.take 4)
  priority : client.priority = client.frameHeader.getD 4 0
  positive : client.payloadSize ≠ 0
  fits : client.payloadSize ≤ udsMaxPayload client.trackId
  payload : client.payload.length ≤ client.payloadSize

/-- The header is being read. -/
structure Unsized (client : UdsClient) : Prop where
  header : client.frameHeader.length ≤ udsFrameHeaderSize
  size : client.payloadSize = 0
  payload : client.payload = []
  pending : client.pendingRecord = false

/-- A record is on offer as soon as it is whole. -/
def Offering (client : UdsClient) : Prop :=
  client.pendingRecord = true ↔ client.payload.length = client.payloadSize

def onOffer (client : UdsClient) : Option (UdsRecord × Nat) :=
  if client.pendingRecord then some (client.record, client.progress) else none

/-- The connection is served up to a client in a state that `P` holds of. -/
def Under (P : UdsClient → Prop) (sent : Bytes) (s : InputState) : Prop :=
  ∃ taken, Serving sent s taken ∧ HandedOver s.offers taken (onOffer s.client) ∧ P s.client

/-- Between turns the header of a record is either unread or parsed. -/
def BetweenTurns (client : UdsClient) : Prop :=
  (Sized client ∧ Offering client) ∨
    (Unsized client ∧ client.frameHeader.length < udsFrameHeaderSize)

def Resting (sent : Bytes) (s : InputState) : Prop :=
  (Registering sent s ∧ s.client.registration.length < s.client.registrationNeeded) ∨
    Under BetweenTurns sent s

theorem Registering.parse {s : InputState} (hreg : Registering sent s)
    (hshort : s.client.registration.length < s.client.registrationNeeded) :
    parseStream s.client.registration = {} := by
  have hverdict : registrationVerdict s.client.registration = .needMore := by
    unfold registrationVerdict
    rcases hreg.needed with hthree | ⟨haccepted, hlen, hneeded, -⟩
    · rw [if_pos (by omega)]
    · rw [if_neg (by omega), haccepted, if_neg (by simp), if_pos (by omega)]
  rw [parseStream, hverdict]

/-- The parse of the bytes up to `more` behind the record under way. -/
theorem Serving.parse {s : InputState} (hserving : Serving sent s taken) (more : Bytes) :
    ∃ read, sent = read ++ s.socket.unread ∧
      parseStream (read ++ more) =
        { trackId := some s.client.trackId
          records := (drain (recordVerdict s.client.trackId) Incremental.collect
            { values := taken.map UdsRecord.payload }
            (s.client.frameHeader ++ s.client.payload ++ more)).1.values
          malformed := (drain (recordVerdict s.client.trackId) Incremental.collect
            { values := taken.map UdsRecord.payload }
            (s.client.frameHeader ++ s.client.payload ++ more)).1.error.isSome } := by
  obtain ⟨reg, body, hsent, haccepted, hlen, htrack, hbody⟩ := hserving.split
  refine ⟨reg ++ (body ++ (s.client.frameHeader ++ s.client.payload)), ?_, ?_⟩
  · rw [hsent]
    simp only [List.append_assoc]
  · have hdrain := Incremental.drain_append (lawful_recordVerdict s.client.trackId)
      Incremental.absorbing_collect {} body (s.client.frameHeader ++ s.client.payload ++ more)
    rw [hbody, Incremental.feed, List.nil_append] at hdrain
    have hjoin : reg ++ (body ++ (s.client.frameHeader ++ s.client.payload)) ++ more =
        reg ++ (body ++ (s.client.frameHeader ++ s.client.payload ++ more)) := by
      simp only [List.append_assoc]
    rw [hjoin, parseStream_registered haccepted hlen, htrack, hdrain]

/-! ### The record under way -/

theorem Unsized.verdict {client : UdsClient} (hunsized : Unsized client)
    (hshort : client.frameHeader.length < udsFrameHeaderSize) :
    recordVerdict client.trackId (client.frameHeader ++ client.payload) = .needMore := by
  rw [hunsized.payload, List.append_nil]
  exact recordVerdict_needMore_iff.mpr (.inl hshort)

theorem Sized.take {client : UdsClient} (hsized : Sized client) (more : Bytes) :
    hostU32 ((client.frameHeader ++ more).take 4) = client.payloadSize := by
  rw [take_append_of_header hsized.header.ge, hsized.size]

theorem Sized.verdict_short {client : UdsClient} (hsized : Sized client)
    (hshort : client.payload.length < client.payloadSize) :
    recordVerdict client.trackId (client.frameHeader ++ client.payload) = .needMore := by
  refine recordVerdict_needMore_iff.mpr (.inr ?_)
  rw [hsized.take, List.length_append, hsized.header]
  exact ⟨hsized.positive, hsized.fits, by omega⟩

theorem Sized.verdict_whole {client : UdsClient} (hsized : Sized client)
    (hwhole : client.payload.length = client.payloadSize) :
    recordVerdict client.trackId (client.frameHeader ++ client.payload) =
      .decoded client.record.payload (client.frameHeader ++ client.payload).length := by
  have hlength : (client.frameHeader ++ client.payload).length =
      udsFrameHeaderSize + client.payloadSize := by
    rw [List.length_append, hsized.header, hwhole]
  refine recordVerdict_decoded_iff.mpr ?_
  rw [hsized.take, getD_append_of_header hsized.header.ge, ← hsized.header, List.drop_left,
    ← hwhole, List.take_length, ← hsized.priority, hlength, hsized.header, hwhole]
  exact ⟨by omega, hsized.positive, hsized.fits, rfl, le_refl _, rfl⟩

/-- What is on offer is the record that follows those taken. -/
theorem drain_underway {client : UdsClient} (hbetween : BetweenTurns client)
    (values : List UdsPayload) :
    drain (recordVerdict client.trackId) Incremental.collect { values := values }
        (client.frameHeader ++ client.payload) =
      ({ values := values ++ (pendingRecords (onOffer client)).map UdsRecord.payload },
        if client.pendingRecord then [] else client.frameHeader ++ client.payload) := by
  have hlawful := lawful_recordVerdict client.trackId
  rcases hbetween with ⟨hsized, hoffering⟩ | ⟨hunsized, hshort⟩
  · cases hpending : client.pendingRecord with
    | true =>
        have hwhole := hsized.verdict_whole (hoffering.mp hpending)
        rw [Incremental.drain_decoded hlawful hwhole, onOffer, hpending]
        simp only [Incremental.collect, List.drop_length]
        rw [Incremental.drain_needMore hlawful.nil]
        rfl
    | false =>
        have hne : client.payload.length ≠ client.payloadSize := fun hwhole => by
          simp [hoffering.mpr hwhole] at hpending
        have hmore := hsized.verdict_short (lt_of_le_of_ne hsized.payload hne)
        rw [Incremental.drain_needMore hmore, onOffer, hpending]
        simp [pendingRecords]
  · rw [Incremental.drain_needMore (hunsized.verdict hshort), onOffer, hunsized.pending]
    simp [pendingRecords]

/-! ### What a connection in service handed over -/

theorem Serving.tracks_pending {s : InputState} (hserving : Serving sent s taken)
    (hparse : (parseStream src).trackId = some s.client.trackId) :
    ∀ record ∈ taken ++ pendingRecords (onOffer s.client),
      (parseStream src).trackId = some record.trackId := by
  intro record hrecord
  rw [hparse]
  rcases List.mem_append.mp hrecord with htaken | hpending
  · rw [hserving.tracks record htaken]
  · unfold onOffer at hpending
    split at hpending
    · obtain rfl := List.mem_singleton.mp hpending
      rfl
    · simp [pendingRecords] at hpending

theorem Serving.inOrder {s : InputState} (hserving : Serving sent s taken)
    (hbetween : BetweenTurns s.client) :
    (taken ++ pendingRecords (onOffer s.client)).map UdsRecord.payload <+:
      (parseStream sent).records := by
  obtain ⟨read, hsent, hparse⟩ := hserving.parse s.socket.unread
  rw [hsent, hparse]
  simp only
  rw [Incremental.drain_append (lawful_recordVerdict _) Incremental.absorbing_collect,
    drain_underway hbetween, List.map_append, Incremental.feed]
  exact Incremental.prefix_drain_collect (lawful_recordVerdict s.client.trackId)
    { values := taken.map UdsRecord.payload ++
        (pendingRecords (onOffer s.client)).map UdsRecord.payload } _

theorem Serving.trackId {s : InputState} (hserving : Serving sent s taken) :
    (parseStream sent).trackId = some s.client.trackId := by
  obtain ⟨read, hsent, hparse⟩ := hserving.parse s.socket.unread
  rw [hsent, hparse]

theorem ingested_open {s : InputState} (hserving : Serving sent s taken)
    (hoffers : HandedOver s.offers taken (onOffer s.client))
    (hbetween : BetweenTurns s.client) :
    Ingested sent s.socket.unread s.offers none taken (onOffer s.client) where
  handedOver := hoffers
  inOrder := hserving.inOrder hbetween
  tracks := hserving.tracks_pending hserving.trackId
  upToDate := by
    intro _
    obtain ⟨read, hsent, hparse⟩ := hserving.parse []
    refine ⟨read, hsent, ?_⟩
    rw [List.append_nil, List.append_nil] at hparse
    rw [hparse, drain_underway hbetween, List.map_append]
  whole := by simp
  malformed := by simp

theorem ingested_failed {s : InputState} (hserving : Serving sent s taken)
    (hoffers : HandedOver s.offers taken (onOffer s.client))
    (hbetween : BetweenTurns s.client) :
    Ingested sent s.socket.unread s.offers (some .failed) taken (onOffer s.client) where
  handedOver := hoffers
  inOrder := hserving.inOrder hbetween
  tracks := hserving.tracks_pending hserving.trackId
  upToDate := by simp
  whole := by simp
  malformed := by simp

/-- The stream ends inside a record. -/
theorem ingested_ended {s : InputState} (hserving : Serving sent s taken)
    (hoffers : HandedOver s.offers taken (onOffer s.client))
    (hbetween : BetweenTurns s.client) (hpending : s.client.pendingRecord = false)
    (hunread : s.socket.unread = []) :
    Ingested sent s.socket.unread s.offers (some .ended) taken (onOffer s.client) where
  handedOver := hoffers
  inOrder := hserving.inOrder hbetween
  tracks := hserving.tracks_pending hserving.trackId
  upToDate := by simp
  whole := by
    intro _
    have hnone : onOffer s.client = none := by rw [onOffer, hpending]; rfl
    obtain ⟨read, hsent, hparse⟩ := hserving.parse []
    rw [hunread, List.append_nil] at hsent
    rw [List.append_nil, List.append_nil] at hparse
    rw [hsent, hparse, drain_underway hbetween, hnone]
    exact ⟨rfl, by simp [pendingRecords]⟩
  malformed := by simp

/-- The header of the next record is refused. -/
theorem ingested_invalid {s : InputState} (hserving : Serving sent s taken)
    (hoffers : HandedOver s.offers taken (onOffer s.client)) (hunsized : Unsized s.client)
    (hrefused : recordVerdict s.client.trackId s.client.frameHeader = .failed ()) :
    Ingested sent s.socket.unread s.offers (some .invalid) taken none := by
  have hnone : onOffer s.client = none := by rw [onOffer, hunsized.pending]; rfl
  obtain ⟨read, hsent, hparse⟩ := hserving.parse s.socket.unread
  have hlawful := lawful_recordVerdict s.client.trackId
  rw [hunsized.payload, List.append_nil,
    Incremental.drain_failed hlawful (hlawful.failed_append hrefused _), ← hsent] at hparse
  have htracks := hserving.tracks_pending hserving.trackId
  rw [hnone] at hoffers htracks
  exact
    { handedOver := hoffers
      inOrder := by rw [hparse]; simp [pendingRecords, Incremental.collect]
      tracks := htracks
      upToDate := by simp
      whole := fun _ => ⟨rfl, by rw [hparse]; rfl⟩
      malformed := fun _ => by rw [hparse]; rfl }

/-! ### The parts of a turn -/

/-- How a call may end. -/
def Stopped (sent : Bytes) : InputState × InputStop → Prop
  | (s, .idle) => Resting sent s
  | (s, .closed reason) =>
      ∃ taken pending, Ingested sent s.socket.unread s.offers (some reason) taken pending

/-- A part of a turn ends the call in a state that `Stop` holds of, or goes on in
one that `Next` holds of. -/
def Leads (Stop : InputState × InputStop → Prop) (Next : InputState → Prop) :
    InputState.Turn → Prop
  | .error stopped => Stop stopped
  | .ok s => Next s

theorem Leads.bind {Stop : InputState × InputStop → Prop} {Next Last : InputState → Prop}
    {turn : InputState.Turn} {rest : InputState → InputState.Turn} (hturn : Leads Stop Next turn)
    (hrest : ∀ s, Next s → Leads Stop Last (rest s)) : Leads Stop Last (turn >>= rest) := by
  cases turn with
  | error stopped => exact hturn
  | ok s => exact hrest s hturn

theorem Serving.moved {s s' : InputState} (hserving : Serving sent s taken)
    (hregistered : s'.client.registered = s.client.registered)
    (htrack : s'.client.trackId = s.client.trackId)
    (hbytes : s'.client.frameHeader ++ s'.client.payload ++ s'.socket.unread =
      s.client.frameHeader ++ s.client.payload ++ s.socket.unread) :
    Serving sent s' taken where
  registered := hregistered.trans hserving.registered
  split := by
    rw [hbytes, htrack]
    exact hserving.split
  tracks := by
    rw [htrack]
    exact hserving.tracks

/-- The header is whole; it has not been parsed yet where `Unsized` holds. -/
def HeaderIn (client : UdsClient) : Prop :=
  (Sized client ∧ Offering client) ∨
    (Unsized client ∧ client.frameHeader.length = udsFrameHeaderSize)

theorem headerRead_leads {s : InputState} (hunder : Under BetweenTurns sent s) :
    Leads (Stopped sent) (Under HeaderIn sent) s.headerRead := by
  obtain ⟨taken, hserving, hoffers, hbetween⟩ := hunder
  have hspec := readNonblocking_spec udsFrameHeaderSize s.reads s.client.frameHeader s.socket
  unfold InputState.headerRead
  extract_lets read
  change ReadsFrom _ _ _ read at hspec
  obtain ⟨chunk, hbuffer, hunread⟩ := hspec.moved
  have hbounded := hspec.bounded
  generalize hnext : s.reading (s.client.setHeader read.buffer) read = s'
  have hclient : s'.client = s.client.setHeader read.buffer := by rw [← hnext]; rfl
  have hrest : s'.socket.unread = read.socket.unread := by rw [← hnext]; rfl
  have hlog : s'.offers = s.offers := by rw [← hnext]; rfl
  rcases hbetween with ⟨hsized, hoffering⟩ | ⟨hunsized, hshort⟩
  · have hnil : chunk = [] := by
      rw [hbuffer, List.length_append, hsized.header, max_self] at hbounded
      exact List.length_eq_zero_iff.mp (by omega)
    have hsame : s'.client = s.client := by
      rw [hclient, hbuffer, hnil, List.append_nil]
      rfl
    have hserving' : Serving sent s' taken := by
      refine hserving.moved (by rw [hsame]) (by rw [hsame]) ?_
      rw [hsame, hrest, hunread, hnil]
      rfl
    have hfilled : read.code = .filled := by
      rw [hspec.filled, hbuffer, hnil, List.append_nil, hsized.header]
    rw [hfilled]
    exact ⟨taken, hserving', by rw [hlog, hsame]; exact hoffers,
      hsame.symm ▸ .inl ⟨hsized, hoffering⟩⟩
  · have hunsized' : Unsized s'.client := by
      rw [max_eq_left hshort.le] at hbounded
      rw [hclient]
      exact ⟨hbounded, hunsized.size, hunsized.payload, hunsized.pending⟩
    have hserving' : Serving sent s' taken := by
      refine hserving.moved (by rw [hclient]; rfl) (by rw [hclient]; rfl) ?_
      rw [hunsized'.payload, hunsized.payload, List.append_nil, List.append_nil, hrest, hunread,
        hclient]
      simp [UdsClient.setHeader, hbuffer]
    have hoffer : onOffer s'.client = onOffer s.client := by
      rw [onOffer, onOffer, hunsized.pending, hunsized'.pending]
      rfl
    have hoffers' : HandedOver s'.offers taken (onOffer s'.client) := by
      rw [hlog, hoffer]
      exact hoffers
    have hlength : s'.client.frameHeader.length = read.buffer.length := by rw [hclient]; rfl
    have hunfilled : read.code ≠ .filled → BetweenTurns s'.client := fun hne =>
      .inr ⟨hunsized', by
        rw [ne_eq, hspec.filled, ← hlength] at hne
        exact not_le.mp hne⟩
    cases hcode : read.code with
    | later => exact .inr ⟨taken, hserving', hoffers', hunfilled (by simp [hcode])⟩
    | ended =>
        exact ⟨_, _, ingested_ended hserving' hoffers' (hunfilled (by simp [hcode]))
          hunsized'.pending (hrest.trans (hspec.exhausted hcode))⟩
    | failed =>
        exact ⟨_, _, ingested_failed hserving' hoffers' (hunfilled (by simp [hcode]))⟩
    | filled =>
        have hlen : udsFrameHeaderSize ≤ s'.client.frameHeader.length :=
          hlength ▸ hspec.filled.mp hcode
        exact ⟨taken, hserving', hoffers', .inr ⟨hunsized', le_antisymm hunsized'.header hlen⟩⟩

/-- A whole header is parsed, and its record is on offer once whole. -/
def Parsed (client : UdsClient) : Prop := Sized client ∧ Offering client

theorem headerParse_leads {s : InputState} (hunder : Under HeaderIn sent s) (allocated : Bool) :
    Leads (Stopped sent) (Under Parsed sent) (s.headerParse allocated) := by
  obtain ⟨taken, hserving, hoffers, hheader⟩ := hunder
  unfold InputState.headerParse
  rcases hheader with ⟨hsized, hoffering⟩ | ⟨hunsized, hlen⟩
  · rw [if_neg fun h => hsized.positive h.1]
    exact ⟨taken, hserving, hoffers, hsized, hoffering⟩
  rw [if_pos ⟨hunsized.size, by simp [hunsized.payload]⟩]
  extract_lets client
  have hnone : ∀ {other : UdsClient}, other.pendingRecord = false → onOffer other = none := by
    intro other hpending
    rw [onOffer, hpending]
    rfl
  split
  · next hrefused =>
    have hfailed : recordVerdict s.client.trackId s.client.frameHeader = .failed () :=
      recordVerdict_failed_iff.mpr ⟨hlen.ge, hrefused⟩
    have hingested := ingested_invalid hserving hoffers hunsized hfailed
    exact ⟨_, _, hingested⟩
  next hvalid =>
  obtain ⟨hpositive, hfits⟩ := not_or.mp hvalid
  have hsized : Sized client :=
    { header := hlen
      size := rfl
      priority := rfl
      positive := hpositive
      fits := not_lt.mp hfits
      payload := by simp [client, UdsClient.parseHeader, hunsized.payload] }
  have hoffering : Offering client := by
    have hpending : client.pendingRecord = false := hunsized.pending
    have hpayload : client.payload = [] := hunsized.payload
    rw [Offering, hpending, hpayload]
    exact ⟨fun h => by simp at h, fun h => absurd h.symm hpositive⟩
  have hoffers' : HandedOver s.offers taken (onOffer client) := by
    have hclient : onOffer client = none := hnone hunsized.pending
    rw [hclient, ← hnone hunsized.pending]
    exact hoffers
  have hunder : Under Parsed sent (s.setClient client) :=
    ⟨taken, hserving.moved rfl rfl rfl, hoffers', hsized, hoffering⟩
  split
  · split
    · exact ⟨taken, hserving.moved rfl rfl rfl, hoffers',
        ⟨hsized.header, hsized.size, hsized.priority, hsized.positive, hsized.fits,
          hsized.payload⟩, hoffering⟩
    · obtain ⟨_, hserving', hoffers', hparsed⟩ := hunder
      exact ⟨_, _, ingested_failed hserving' hoffers' (.inl hparsed)⟩
  · exact hunder

/-- The record is whole; it may not be on offer yet. -/
def WholeRecord (client : UdsClient) : Prop :=
  Sized client ∧ client.payload.length = client.payloadSize

theorem payloadRead_leads {s : InputState} (hunder : Under Parsed sent s) :
    Leads (Stopped sent) (Under WholeRecord sent) s.payloadRead := by
  obtain ⟨taken, hserving, hoffers, hsized, hoffering⟩ := hunder
  have hspec := readNonblocking_spec s.client.payloadSize s.reads s.client.payload s.socket
  unfold InputState.payloadRead
  extract_lets read
  change ReadsFrom _ _ _ read at hspec
  obtain ⟨chunk, hbuffer, hunread⟩ := hspec.moved
  have hbounded := hspec.bounded
  rw [max_eq_left hsized.payload] at hbounded
  generalize hnext : s.reading (s.client.setPayload read.buffer) read = s'
  have hclient : s'.client = s.client.setPayload read.buffer := by rw [← hnext]; rfl
  have hrest : s'.socket.unread = read.socket.unread := by rw [← hnext]; rfl
  have hlog : s'.offers = s.offers := by rw [← hnext]; rfl
  have hsized' : Sized s'.client := by
    rw [hclient]
    exact ⟨hsized.header, hsized.size, hsized.priority, hsized.positive, hsized.fits, hbounded⟩
  have hserving' : Serving sent s' taken := by
    refine hserving.moved (by rw [hclient]; rfl) (by rw [hclient]; rfl) ?_
    rw [hrest, hunread, hclient]
    simp [UdsClient.setPayload, hbuffer]
  have hoffer : onOffer s'.client = onOffer s.client := by
    rw [hclient]
    cases hpending : s.client.pendingRecord with
    | false => simp [onOffer, UdsClient.setPayload, hpending]
    | true =>
        -- the record on offer is whole, so nothing more was read
        have hnil : chunk = [] := by
          rw [hbuffer, List.length_append, hoffering.mp hpending] at hbounded
          exact List.length_eq_zero_iff.mp (by omega)
        rw [hbuffer, hnil, List.append_nil]
        rfl
  have hoffers' : HandedOver s'.offers taken (onOffer s'.client) := by
    rw [hlog, hoffer]
    exact hoffers
  have hunfilled : read.code ≠ .filled →
      s'.client.pendingRecord = false ∧ BetweenTurns s'.client := by
    intro hne
    rw [ne_eq, hspec.filled, not_le] at hne
    have hpending : s.client.pendingRecord = false := by
      by_contra htrue
      have hwhole := hoffering.mp (by simpa using htrue)
      rw [hbuffer, List.length_append] at hne
      omega
    have hpending' : s'.client.pendingRecord = false := by rw [hclient]; exact hpending
    refine ⟨hpending', .inl ⟨hsized', ?_⟩⟩
    rw [Offering, hpending', hclient]
    exact ⟨fun h => by simp at h, fun h => absurd h (Nat.ne_of_lt hne)⟩
  cases hcode : read.code with
  | later =>
      exact .inr ⟨taken, hserving', hoffers', (hunfilled (by simp [hcode])).2⟩
  | ended =>
      obtain ⟨hpending, hbetween⟩ := hunfilled (by simp [hcode])
      exact ⟨_, _, ingested_ended hserving' hoffers' hbetween hpending
        (hrest.trans (hspec.exhausted hcode))⟩
  | failed => exact ⟨_, _, ingested_failed hserving' hoffers' (hunfilled (by simp [hcode])).2⟩
  | filled =>
      have hwhole : s'.client.payload.length = s'.client.payloadSize := by
        rw [hclient]
        exact le_antisymm hbounded (hspec.filled.mp hcode)
      exact ⟨taken, hserving', hoffers', hsized', hwhole⟩

theorem handedOver_snoc {offers : List UdsOffer} (hoffers : HandedOver offers taken pending)
    (offer : UdsOffer) {handed : List UdsRecord × Option (UdsRecord × Nat)}
    (hstep : handOver (taken, pending) offer = some handed) :
    HandedOver (offers ++ [offer]) handed.1 handed.2 := by
  rw [HandedOver, Replay.replay_snoc, hoffers]
  exact hstep

/-- The next offer is the record on offer, or the first of a new one. -/
theorem handOver_begin {s : InputState} (taken : List UdsRecord) (given : UdsAnswer) :
    handOver (taken, onOffer s.client)
        ⟨s.beginRecord.client.record, s.beginRecord.client.progress, given⟩ =
      match given.result with
      | .accepted => some (taken ++ [s.beginRecord.client.record], none)
      | .retry => some (taken, some (s.beginRecord.client.record, given.progress))
      | .fatal => some (taken, none) := by
  unfold handOver
  rw [if_pos]
  unfold onOffer InputState.beginRecord
  split <;> rfl

structure Begun (s s' : InputState) : Prop where
  socket : s'.socket = s.socket
  offers : s'.offers = s.offers
  registered : s'.client.registered = s.client.registered
  trackId : s'.client.trackId = s.client.trackId
  header : s'.client.frameHeader = s.client.frameHeader
  size : s'.client.payloadSize = s.client.payloadSize
  priority : s'.client.priority = s.client.priority
  payload : s'.client.payload = s.client.payload
  pending : s'.client.pendingRecord = true

theorem begun_beginRecord (s : InputState) : Begun s s.beginRecord := by
  unfold InputState.beginRecord
  split
  · next hpending => exact ⟨rfl, rfl, rfl, rfl, rfl, rfl, rfl, rfl, hpending⟩
  · exact ⟨rfl, rfl, rfl, rfl, rfl, rfl, rfl, rfl, rfl⟩

theorem Begun.sized {s s' : InputState} (hbegun : Begun s s') (hsized : Sized s.client) :
    Sized s'.client where
  header := by rw [hbegun.header]; exact hsized.header
  size := by rw [hbegun.size, hbegun.header]; exact hsized.size
  priority := by rw [hbegun.priority, hbegun.header]; exact hsized.priority
  positive := by rw [hbegun.size]; exact hsized.positive
  fits := by rw [hbegun.size, hbegun.trackId]; exact hsized.fits
  payload := by rw [hbegun.payload, hbegun.size]; exact hsized.payload

/-- The taken record joins those before it. -/
theorem Serving.take {s : InputState} (hserving : Serving sent s taken)
    (hsized : Sized s.client) (hwhole : s.client.payload.length = s.client.payloadSize) :
    Serving sent (s.setClient s.client.consumed) (taken ++ [s.client.record]) where
  registered := hserving.registered
  split := by
    obtain ⟨reg, body, hsent, haccepted, hlen, htrack, hbody⟩ := hserving.split
    refine ⟨reg, body ++ (s.client.frameHeader ++ s.client.payload), ?_, haccepted, hlen,
      htrack, ?_⟩
    · rw [hsent]
      simp [InputState.setClient, UdsClient.consumed]
    · have hlawful := lawful_recordVerdict s.client.trackId
      have hdrain := Incremental.drain_append hlawful Incremental.absorbing_collect {} body
        (s.client.frameHeader ++ s.client.payload)
      rw [hbody, Incremental.feed, List.nil_append,
        Incremental.drain_decoded hlawful (hsized.verdict_whole hwhole)] at hdrain
      simp only [Incremental.collect, List.drop_length] at hdrain
      rw [Incremental.drain_needMore hlawful.nil] at hdrain
      rw [List.map_append]
      exact hdrain
  tracks := by
    intro record hrecord
    rcases List.mem_append.mp hrecord with htaken | hlast
    · exact hserving.tracks record htaken
    · obtain rfl := List.mem_singleton.mp hlast
      rfl

theorem offerRecord_leads {s : InputState} (hunder : Under WholeRecord sent s)
    (answer : UdsRecord → Nat → UdsAnswer) :
    Leads (Stopped sent) (Under BetweenTurns sent) (s.beginRecord.offerRecord answer) := by
  obtain ⟨taken, hserving, hoffers, hsized, hwhole⟩ := hunder
  have hbegun := begun_beginRecord s
  have hstep := handOver_begin (s := s) taken
    (answer s.beginRecord.client.record s.beginRecord.client.progress)
  generalize s.beginRecord = s' at hbegun hstep ⊢
  have hsized' := hbegun.sized hsized
  have hwhole' : s'.client.payload.length = s'.client.payloadSize := by
    rw [hbegun.payload, hbegun.size]
    exact hwhole
  have hserving' : Serving sent s' taken :=
    hserving.moved hbegun.registered hbegun.trackId
      (by rw [hbegun.header, hbegun.payload, hbegun.socket])
  unfold InputState.offerRecord
  extract_lets given
  have hlog : (s'.logOffer given).offers =
      s.offers ++ [⟨s'.client.record, s'.client.progress, given⟩] := by
    rw [← hbegun.offers]
    rfl
  cases hresult : given.result with
  | retry =>
      rw [show answer s'.client.record s'.client.progress = given from rfl, hresult] at hstep
      refine .inr ⟨taken, hserving'.moved rfl rfl rfl, ?_, .inl ⟨?_, ?_⟩⟩
      · have hpending : onOffer (s'.logOffer given).client =
            some (s'.client.record, given.progress) := by
          rw [onOffer, show (s'.logOffer given).client.pendingRecord = true from hbegun.pending]
          rfl
        rw [hpending, hlog]
        exact handedOver_snoc hoffers _ hstep
      · exact ⟨hsized'.header, hsized'.size, hsized'.priority, hsized'.positive, hsized'.fits,
          hsized'.payload⟩
      · exact iff_of_true hbegun.pending hwhole'
  | fatal =>
      rw [show answer s'.client.record s'.client.progress = given from rfl, hresult] at hstep
      refine ⟨taken, none, ?_⟩
      have hinOrder := hserving'.inOrder (.inl ⟨hsized', iff_of_true hbegun.pending hwhole'⟩)
      rw [List.map_append] at hinOrder
      exact
        { handedOver := by
            rw [hlog]
            exact handedOver_snoc hoffers _ hstep
          inOrder := by
            rw [pendingRecords, Option.map_none, Option.toList_none, List.append_nil]
            exact (List.prefix_append _ _).trans hinOrder
          tracks := by
            intro record hrecord
            rw [pendingRecords, Option.map_none, Option.toList_none, List.append_nil] at hrecord
            rw [hserving'.trackId, hserving'.tracks record hrecord]
          upToDate := by simp
          whole := by simp
          malformed := by simp }
  | accepted =>
      rw [show answer s'.client.record s'.client.progress = given from rfl, hresult] at hstep
      have htaken : Serving sent (s'.setClient s'.client.consumed)
          (taken ++ [s'.client.record]) := hserving'.take hsized' hwhole'
      refine ⟨taken ++ [s'.client.record], htaken.moved rfl rfl rfl, ?_, .inr ⟨?_, ?_⟩⟩
      · have hnone : onOffer (s'.logOffer given).client.consumed = none := rfl
        rw [show ((s'.logOffer given).setClient (s'.logOffer given).client.consumed).client =
          (s'.logOffer given).client.consumed from rfl, hnone]
        rw [show ((s'.logOffer given).setClient (s'.logOffer given).client.consumed).offers =
          (s'.logOffer given).offers from rfl, hlog]
        exact handedOver_snoc hoffers _ hstep
      · exact ⟨Nat.zero_le _, rfl, rfl, rfl⟩
      · exact Nat.succ_pos _

/-! ### The registration -/

theorem ingested_unregistered {unread : Bytes} (hclosed : reason ≠ .ended ∧ reason ≠ .invalid) :
    Ingested sent unread [] (some reason) [] none where
  handedOver := rfl
  inOrder := List.nil_prefix
  tracks := by simp [pendingRecords]
  upToDate := by simp
  whole := by simp [hclosed.1, hclosed.2]
  malformed := by simp [hclosed.2]

theorem Registering.ingested {s : InputState} (hreg : Registering sent s)
    (hshort : s.client.registration.length < s.client.registrationNeeded) :
    Ingested sent s.socket.unread s.offers none [] none where
  handedOver := by rw [hreg.offers]; rfl
  inOrder := List.nil_prefix
  tracks := by simp [pendingRecords]
  upToDate := fun _ => ⟨_, hreg.split, by rw [hreg.parse hshort]; rfl⟩
  whole := by simp
  malformed := by simp

/-- The stream ends inside the registration. -/
theorem Registering.ingested_ended {s : InputState} (hreg : Registering sent s)
    (hshort : s.client.registration.length < s.client.registrationNeeded)
    (hunread : s.socket.unread = []) :
    Ingested sent s.socket.unread s.offers (some .ended) [] none where
  handedOver := by rw [hreg.offers]; rfl
  inOrder := List.nil_prefix
  tracks := by simp [pendingRecords]
  upToDate := by simp
  whole := by
    intro _
    rw [hreg.split, hunread, List.append_nil, hreg.parse hshort]
    exact ⟨rfl, rfl⟩
  malformed := by simp

theorem Registering.ingested_invalid {s : InputState} (hreg : Registering sent s)
    (hlen : 3 ≤ s.client.registration.length)
    (hrefused : registrationAccepted s.client.registration = false) :
    Ingested sent s.socket.unread s.offers (some .invalid) [] none := by
  have hparse : parseStream sent = { malformed := true } := by
    have hverdict : registrationVerdict sent = .failed () := by
      unfold registrationVerdict
      rw [hreg.split, accepted_append hlen, hrefused, List.length_append, if_neg (by omega),
        if_pos rfl]
    rw [parseStream, hverdict]
  exact
    { handedOver := by rw [hreg.offers]; rfl
      inOrder := List.nil_prefix
      tracks := by simp [pendingRecords]
      upToDate := by simp
      whole := fun _ => ⟨rfl, by rw [hparse]; rfl⟩
      malformed := fun _ => by rw [hparse] }

def Registration (sent : Bytes) (s : InputState) : Prop :=
  Registering sent s ∧ s.client.registration.length = s.client.registrationNeeded

theorem registrationRead_leads {s : InputState} (hreg : Registering sent s) :
    Leads (Stopped sent) (Registration sent) s.registrationRead := by
  have hneeded : (if s.client.registrationNeeded = 0 then 3 else s.client.registrationNeeded) =
      s.client.registrationNeeded := by
    rw [if_neg]
    rcases hreg.needed with hthree | ⟨-, -, hneeded, -⟩ <;> omega
  have hspec := readNonblocking_spec s.client.registrationNeeded s.reads s.client.registration
    s.socket
  unfold InputState.registrationRead
  rw [hneeded]
  extract_lets needed read
  change ReadsFrom _ _ _ read at hspec
  obtain ⟨chunk, hbuffer, hunread⟩ := hspec.moved
  have hbounded := hspec.bounded
  rw [max_eq_left hreg.bounded] at hbounded
  generalize hnext : s.reading (s.client.setRegistration read.buffer needed) read = s'
  have hclient : s'.client = s.client.setRegistration read.buffer s.client.registrationNeeded := by
    rw [← hnext]
    rfl
  have hrest : s'.socket.unread = read.socket.unread := by rw [← hnext]; rfl
  have hlog : s'.offers = s.offers := by rw [← hnext]; rfl
  have hlength : s'.client.registration.length = read.buffer.length := by rw [hclient]; rfl
  have hsame : s'.client.registrationNeeded = s.client.registrationNeeded := by rw [hclient]; rfl
  have hreg' : Registering sent s' :=
    { unregistered := by rw [hclient]; exact hreg.unregistered
      split := by
        rw [hreg.split, hrest, hunread, hclient]
        simp [UdsClient.setRegistration, hbuffer]
      offers := hlog.trans hreg.offers
      header := by rw [hclient]; exact hreg.header
      size := by rw [hclient]; exact hreg.size
      payload := by rw [hclient]; exact hreg.payload
      pending := by rw [hclient]; exact hreg.pending
      needed := by
        rw [hsame]
        refine hreg.needed.imp id fun ⟨haccepted, hlen, hneeded, hmore⟩ => ?_
        rw [hclient]
        simp only [UdsClient.setRegistration, hbuffer]
        rw [accepted_append hlen, nameLen_append hlen, List.length_append]
        exact ⟨haccepted, by omega, hneeded, hmore⟩
      bounded := by
        rw [hlength, hsame]
        exact hbounded }
  have hunfilled : read.code ≠ .filled →
      s'.client.registration.length < s'.client.registrationNeeded := by
    intro hne
    rw [ne_eq, hspec.filled, not_le] at hne
    rw [hlength, hsame]
    exact hne
  cases hcode : read.code with
  | later => exact .inl ⟨hreg', hunfilled (by simp [hcode])⟩
  | ended =>
      exact ⟨_, _, hreg'.ingested_ended (hunfilled (by simp [hcode]))
        (hrest.trans (hspec.exhausted hcode))⟩
  | failed =>
      refine ⟨[], none, ?_⟩
      rw [hreg'.offers]
      exact ingested_unregistered (by simp)
  | filled =>
      refine ⟨hreg', ?_⟩
      rw [hlength, hsame]
      exact le_antisymm hbounded (hspec.filled.mp hcode)

theorem register_rests {s : InputState} (s' : InputState) (hreg : Registering sent s)
    (haccepted : registrationAccepted s.client.registration = true)
    (hlen : s.client.registration.length = 3 + registrationNameLen s.client.registration)
    (hclient : s'.client = (s.client.setRegistration s.client.registration needed).register)
    (hsocket : s'.socket = s.socket) (hoffers : s'.offers = s.offers) : Resting sent s' := by
  refine .inr ⟨[], ?_, ?_, .inr ⟨?_, ?_⟩⟩
  · refine ⟨by rw [hclient]; rfl, ⟨s.client.registration, [], ?_, haccepted, hlen, ?_, ?_⟩,
      by simp⟩
    · rw [hreg.split, hsocket, hclient]
      simp [UdsClient.setRegistration, UdsClient.register, hreg.header, hreg.payload]
    · rw [hclient]
      rfl
    · rw [Incremental.drain_needMore (lawful_recordVerdict _).nil]
      rfl
  · rw [hoffers, hreg.offers, onOffer, hclient]
    simp only [UdsClient.setRegistration, UdsClient.register, hreg.pending]
    rfl
  · rw [hclient]
    exact ⟨by simp [UdsClient.setRegistration, UdsClient.register, hreg.header], hreg.size,
      hreg.payload, hreg.pending⟩
  · rw [hclient]
    simp [UdsClient.setRegistration, UdsClient.register, hreg.header, udsFrameHeaderSize]

theorem registrationParse_leads {s : InputState} (hin : Registration sent s) :
    Leads (Stopped sent) (Resting sent) s.registrationParse := by
  obtain ⟨hreg, hlen⟩ := hin
  unfold InputState.registrationParse
  split
  · next hthree =>
    split
    · next hrefused => exact ⟨_, _, hreg.ingested_invalid (by omega) hrefused⟩
    next haccepted =>
    have haccepted : registrationAccepted s.client.registration = true := by
      simpa using haccepted
    extract_lets needed client
    split
    · next hshort =>
      refine .inl ⟨?_, hshort⟩
      exact
        { unregistered := hreg.unregistered
          split := hreg.split
          offers := hreg.offers
          header := hreg.header
          size := hreg.size
          payload := hreg.payload
          pending := hreg.pending
          needed := .inr ⟨haccepted, by
            change 3 ≤ s.client.registration.length
            omega, rfl, by
            change needed ≠ 3
            omega⟩
          bounded := hshort.le }
    · next hwhole =>
      refine register_rests (s.setClient client.register) hreg haccepted ?_ rfl rfl rfl
      simp only [needed] at hwhole
      omega
  · next hmore =>
    rcases hreg.needed with hthree | ⟨haccepted, -, hneeded, -⟩
    · exact absurd hthree hmore
    · exact register_rests (s.setClient s.client.register) hreg haccepted
        (hlen.trans hneeded) rfl rfl rfl

/-! ### A call, and a connection over its whole life -/

theorem turn_leads {s : InputState} (hresting : Resting sent s) (env : InputEnv) (frame : Nat) :
    Leads (Stopped sent) (Resting sent) (s.turn env frame) := by
  unfold InputState.turn
  rcases hresting with ⟨hreg, hshort⟩ | hunder
  · rw [if_pos hreg.unregistered]
    exact (registrationRead_leads hreg).bind fun s hin => registrationParse_leads hin
  · obtain ⟨taken, hserving, hoffers, hbetween⟩ := hunder
    rw [if_neg (by simp [hserving.registered])]
    split
    · exact .inr ⟨taken, hserving, hoffers, hbetween⟩
    · refine (headerRead_leads ⟨taken, hserving, hoffers, hbetween⟩).bind fun s hheader => ?_
      refine (headerParse_leads hheader _).bind fun s hparsed => ?_
      refine (payloadRead_leads hparsed).bind fun s hwhole => ?_
      have hoffer := offerRecord_leads hwhole (env.answer frame)
      cases hturn : s.beginRecord.offerRecord (env.answer frame) with
      | error stopped =>
          rw [hturn] at hoffer
          exact hoffer
      | ok s' =>
          rw [hturn] at hoffer
          exact .inr hoffer

theorem turns_stopped {s : InputState} (hresting : Resting sent s) (env : InputEnv)
    (count frame : Nat) : Stopped sent (s.turns env count frame) := by
  induction count generalizing s frame with
  | zero => exact hresting
  | succ count ih =>
      have hturn := turn_leads hresting env frame
      rw [InputState.turns]
      cases hnext : s.turn env frame with
      | error stopped =>
          rw [hnext] at hturn
          exact hturn
      | ok s' =>
          rw [hnext] at hturn
          exact ih hturn (frame + 1)

end Qlinq
