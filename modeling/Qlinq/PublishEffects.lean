import Qlinq.Lib.Pointwise
import Qlinq.PublishSteps

namespace Qlinq

open SubscriptionTable (SameBindings sameBindings_setStream)

/-! What an attempt to publish an object can do to each connection and to the
sent cache. -/

/-- The datagram carries a symbol of the data, under the given geometry. -/
structure Carries (packet : Sent Datagram) (track : TrackId) (groupId objectId : Nat)
    (data : Bytes) (geometry : Geometry) : Prop where
  of_track : packet.track = track
  of_group : packet.message.header.groupId = groupId
  of_object : packet.message.header.objectId = objectId
  of_geometry : packet.message.header.geometry = geometry
  symbol : ∃ codec profile paritySymbols blocks,
    symbolBlocks codec profile data geometry.symbolSize geometry.dataSymbols
      paritySymbols = some blocks ∧
    packet.message.symbol = blocks.getD packet.message.header.symbolIndex []

namespace Conn

/-- The message names its track by the alias it has on the connection now. -/
def Addressed (c : Conn) (sent : Sent α) (a : TrackAlias) : Prop :=
  c.sendSubscriptions.findAlias sent.track = some a ∧ sent.generation = c.sendGeneration a

/-- The connection without the fields a publication writes. -/
def still (c : Conn) : Conn :=
  { c with
    sendSubscriptions := SubscriptionTable.init 0
    closed := none
    fecGroupDelivered := false
    roundRobinPath := 0
    nextStream := 0
    control := []
    datagrams := []
    streams := [] }

/-- The connection's part in an attempt to publish an object. -/
structure Publishes (object : MoqObject) (geometry : Geometry) (c c' : Conn) : Prop where
  still : c'.still = c.still
  bindings : SameBindings c.sendSubscriptions c'.sendSubscriptions
  closed : c'.closed = c.closed ∨
    c.closed = none ∧ ∃ reason, c'.closed = some ⟨.resourceLimit, reason⟩
  control : ∃ frames, c'.control = c.control ++ frames ∧
    ∀ frame ∈ frames, ∃ payload, frame.message = .unicast payload
  datagrams : ∃ packets, c'.datagrams = c.datagrams ++ packets ∧ ∀ packet ∈ packets,
    Carries packet object.trackId object.groupId object.objectId object.data geometry ∧
      c.Addressed packet packet.message.header.trackAlias ∧
      (trackProfile object.trackId).reliable = false
  streams : ∃ frames, c'.streams = c.streams ++ frames ∧ ∀ frame ∈ frames,
    frame.2.track = object.trackId ∧ frame.2.message.payload = object.data ∧
      c.Addressed frame.2 frame.2.message.trackAlias ∧
      (trackProfile object.trackId).reliable = true

namespace Publishes

variable {object : MoqObject} {geometry : Geometry} {c c' : Conn}

theorem refl (object : MoqObject) (geometry : Geometry) (c : Conn) :
    Publishes object geometry c c where
  still := rfl
  bindings := SameBindings.refl _
  closed := Or.inl rfl
  control := ⟨[], by simp⟩
  datagrams := ⟨[], by simp⟩
  streams := ⟨[], by simp⟩

instance : Std.Refl (Publishes object geometry) := ⟨Publishes.refl _ _⟩

theorem unwritten (h : Publishes object geometry c c') (field : Conn → β)
    (hfield : ∀ c : Conn, field c.still = field c) : field c' = field c := by
  rw [← hfield c', h.still, hfield]

theorem id_eq (h : Publishes object geometry c c') : c'.id = c.id :=
  h.unwritten Conn.id fun _ => rfl

theorem protocolReady_eq (h : Publishes object geometry c c') :
    c'.protocolReady = c.protocolReady :=
  h.unwritten Conn.protocolReady fun _ => rfl

theorem authenticated_eq (h : Publishes object geometry c c') :
    c'.authenticated = c.authenticated :=
  h.unwritten Conn.authenticated fun _ => rfl

theorem helloReceived_eq (h : Publishes object geometry c c') :
    c'.helloReceived = c.helloReceived :=
  h.unwritten Conn.helloReceived fun _ => rfl

theorem peerCapabilities_eq (h : Publishes object geometry c c') :
    c'.peerCapabilities = c.peerCapabilities :=
  h.unwritten Conn.peerCapabilities fun _ => rfl

theorem sendGeneration_eq (h : Publishes object geometry c c') (a : TrackAlias) :
    c'.sendGeneration a = c.sendGeneration a := by
  simp only [sendGeneration, h.bindings.getState]

theorem addressed_iff (h : Publishes object geometry c c') (sent : Sent α)
    (a : TrackAlias) : c'.Addressed sent a ↔ c.Addressed sent a := by
  simp only [Addressed, h.bindings.findAlias, h.sendGeneration_eq]

theorem trans (hfirst : Publishes object geometry c c')
    (hsecond : Publishes object geometry c' c'') : Publishes object geometry c c'' where
  still := hsecond.still.trans hfirst.still
  bindings := hfirst.bindings.trans hsecond.bindings
  closed := by
    rcases hsecond.closed with hsame | ⟨hopen, hclosed⟩
    · rcases hfirst.closed with hold | ⟨hopen, hclosed⟩
      · exact Or.inl (hsame.trans hold)
      · exact Or.inr ⟨hopen, by rwa [hsame]⟩
    · rcases hfirst.closed with hold | ⟨-, reason, hresource⟩
      · exact Or.inr ⟨hold.symm.trans hopen, hclosed⟩
      · simp [hresource] at hopen
  control := by
    obtain ⟨first, hfirst, hunicast⟩ := hfirst.control
    obtain ⟨second, hsecond, hlater⟩ := hsecond.control
    refine ⟨first ++ second, by rw [hsecond, hfirst, List.append_assoc], ?_⟩
    intro frame hframe
    rcases List.mem_append.mp hframe with hmem | hmem
    · exact hunicast frame hmem
    · exact hlater frame hmem
  datagrams := by
    obtain ⟨first, hpackets, hcarries⟩ := hfirst.datagrams
    obtain ⟨second, hmore, hlater⟩ := hsecond.datagrams
    refine ⟨first ++ second, by rw [hmore, hpackets, List.append_assoc], ?_⟩
    intro packet hpacket
    rcases List.mem_append.mp hpacket with hmem | hmem
    · exact hcarries packet hmem
    · obtain ⟨hcarried, haddressed, hunreliable⟩ := hlater packet hmem
      exact ⟨hcarried, (hfirst.addressed_iff _ _).mp haddressed, hunreliable⟩
  streams := by
    obtain ⟨first, hframes, hwritten⟩ := hfirst.streams
    obtain ⟨second, hmore, hlater⟩ := hsecond.streams
    refine ⟨first ++ second, by rw [hmore, hframes, List.append_assoc], ?_⟩
    intro frame hframe
    rcases List.mem_append.mp hframe with hmem | hmem
    · exact hwritten frame hmem
    · obtain ⟨htrack, hpayload, haddressed, hreliable⟩ := hlater frame hmem
      exact ⟨htrack, hpayload, (hfirst.addressed_iff _ _).mp haddressed, hreliable⟩

end Publishes

end Conn

/-- Some of the object's symbols are on their way. -/
def PublishResult.queuesSymbols (result : PublishResult) : Prop :=
  result = .delivered ∨ result = .partialDelivery

namespace Transport

def RecipientOutcome.delivers : RecipientOutcome → Prop
  | .alreadyDelivered => True
  | .attempted result _ => result = .delivered
  | _ => False

def RecipientOutcome.result? : RecipientOutcome → Option PublishResult
  | .attempted result _ => some result
  | _ => none

@[simp] theorem RecipientOutcome.delivers_attempted (result : PublishResult)
    (sent : Nat) : (attempted result sent).delivers ↔ result = .delivered :=
  Iff.rfl

@[simp] theorem RecipientOutcome.result?_attempted (result : PublishResult)
    (sent : Nat) : (attempted result sent).result? = some result :=
  rfl

/-! What the recipient loop has counted, outcome by outcome. -/

theorem tally_delivered (outcomes : List RecipientOutcome) (start : Tally) :
    (outcomes.foldl Tally.count start).delivered = 0 ↔
      start.delivered = 0 ∧ ∀ outcome ∈ outcomes, ¬ outcome.delivers := by
  induction outcomes generalizing start with
  | nil => simp
  | cons outcome rest ih =>
      simp only [List.foldl_cons, ih, List.mem_cons, forall_eq_or_imp]
      cases outcome with
      | attempted result sent => cases result <;> simp [Tally.count]
      | _ => simp [Tally.count, RecipientOutcome.delivers]

theorem tally_partial (outcomes : List RecipientOutcome) (start : Tally) :
    (outcomes.foldl Tally.count start).partiallyQueued = true ↔
      start.partiallyQueued = true ∨
        ∃ outcome ∈ outcomes, outcome.result? = some .partialDelivery := by
  induction outcomes generalizing start with
  | nil => simp
  | cons outcome rest ih =>
      simp only [List.foldl_cons, ih, List.mem_cons, exists_eq_or_imp]
      cases outcome with
      | attempted result sent => cases result <;> simp [Tally.count]
      | _ => simp [Tally.count, RecipientOutcome.result?]

theorem tally_failure (outcomes : List RecipientOutcome)
    (hlarge : RecipientOutcome.tooLarge ∉ outcomes) (start : Tally) :
    (outcomes.foldl Tally.count start).failure = .backpressure ↔
      start.failure = .backpressure ∨
        ∃ outcome ∈ outcomes, outcome.result? = some .backpressure := by
  induction outcomes generalizing start with
  | nil => simp
  | cons outcome rest ih =>
      obtain ⟨hhead, hrest⟩ := List.ne_and_not_mem_of_not_mem_cons hlarge
      simp only [List.foldl_cons, ih hrest, List.mem_cons, exists_eq_or_imp]
      cases outcome with
      | tooLarge => exact absurd rfl hhead
      | attempted result sent => cases result <;> simp [Tally.count]
      | _ => simp [Tally.count, RecipientOutcome.result?]

theorem eligible_le_count (tally : Tally) (outcome : RecipientOutcome) :
    tally.eligible ≤ (tally.count outcome).eligible := by
  cases outcome with
  | attempted result sent => cases result <;> simp [Tally.count]
  | _ => simp [Tally.count]

theorem eligible_le_tally (outcomes : List RecipientOutcome) (start : Tally) :
    start.eligible ≤ (outcomes.foldl Tally.count start).eligible := by
  induction outcomes generalizing start with
  | nil => exact le_refl _
  | cons outcome rest ih => exact (eligible_le_count start outcome).trans (ih _)

theorem eligible_of_backpressure (outcomes : List RecipientOutcome) (start : Tally)
    (houtcome : outcome ∈ outcomes) (hresult : outcome.result? = some .backpressure) :
    0 < (outcomes.foldl Tally.count start).eligible := by
  induction outcomes generalizing start with
  | nil => simp at houtcome
  | cons other rest ih =>
      rcases List.mem_cons.mp houtcome with rfl | hrest
      · cases outcome with
        | attempted result sent =>
            simp only [RecipientOutcome.result?_attempted, Option.some.injEq] at hresult
            subst hresult
            have := eligible_le_tally rest (start.count (.attempted .backpressure sent))
            simp only [Tally.count] at this
            exact Nat.lt_of_lt_of_le (Nat.succ_pos _) this
        | _ => simp [RecipientOutcome.result?] at hresult
      · exact ih _ hrest

end Transport

/-! ### Datagrams -/

theorem mem_enqueueSymbols {env : ConnEnv} {packet : Nat → Nat → Sent Datagram}
    (symbols : List Nat) (queued : List (Sent Datagram)) :
    ∀ sent ∈ (enqueueSymbols env active schedule packet symbols queued).1,
      sent ∈ queued ∨ ∃ symbol ∈ symbols, ∃ mapped, sent = packet symbol mapped := by
  induction symbols generalizing queued with
  | nil => exact fun sent hsent => Or.inl hsent
  | cons symbol rest ih =>
      simp only [enqueueSymbols]
      split
      · exact fun sent hsent => Or.inl hsent
      split
      · exact fun sent hsent => Or.inl hsent
      split
      · exact fun sent hsent => Or.inl hsent
      split
      · exact fun sent hsent => Or.inl hsent
      · intro sent hsent
        rcases ih _ sent hsent with hqueued | ⟨later, hlater, hpacket⟩
        · rcases List.mem_append.mp hqueued with hold | hnew
          · exact Or.inl hold
          · exact Or.inr ⟨_, List.mem_cons_self, _, List.mem_singleton.mp hnew⟩
        · exact Or.inr ⟨later, List.mem_cons_of_mem _ hlater, hpacket⟩

theorem publishes_publishDatagramToConn (env : ConnEnv) (c : Conn) (object : MoqObject)
    (hreliable : (trackProfile object.trackId).reliable = false)
    (symbolSize dataSymbols : Nat) :
    Conn.Publishes object ⟨symbolSize, dataSymbols, object.size⟩ c
      (publishDatagramToConn env c object (trackProfile object.trackId) symbolSize
        dataSymbols).1 := by
  have hcursor : ∀ cursor, Conn.Publishes object ⟨symbolSize, dataSymbols, object.size⟩ c
      { c with roundRobinPath := cursor } := fun cursor =>
    { Conn.Publishes.refl object _ c with still := rfl }
  simp only [publishDatagramToConn]
  split
  · exact Conn.Publishes.refl _ _ c
  split
  · exact hcursor _
  · exact hcursor _
  split
  · exact hcursor _
  split
  · exact hcursor _
  split
  · exact hcursor _
  split
  · exact hcursor _
  next blocks hblocks =>
  split
  · exact hcursor _
  next a halias =>
  refine { Conn.Publishes.refl object ⟨symbolSize, dataSymbols, object.size⟩ c with
    still := rfl
    datagrams := ⟨_, rfl, fun sent hsent => ?_⟩ }
  rcases mem_enqueueSymbols _ _ sent hsent with hnone | ⟨symbol, -, mapped, rfl⟩
  · simp at hnone
  · refine ⟨⟨rfl, rfl, rfl, rfl, ?_⟩, ⟨halias, rfl⟩, hreliable⟩
    exact ⟨env.codec, trackProfile object.trackId, _, blocks, hblocks, rfl⟩

namespace Transport

theorem publishes_publishRecipient (t : Transport) (env : FlushEnv) (object : MoqObject)
    (hreliable : (trackProfile object.trackId).reliable = false)
    (symbolSize dataSymbols : Nat) (inFlush : Bool) (c : Conn) :
    Conn.Publishes object ⟨symbolSize, dataSymbols, object.size⟩ c
      (t.publishRecipient env object symbolSize dataSymbols inFlush c).1 := by
  simp only [publishRecipient]
  split
  · exact Conn.Publishes.refl _ _ c
  split
  · exact Conn.Publishes.refl _ _ c
  split
  · exact Conn.Publishes.refl _ _ c
  have hpublished := publishes_publishDatagramToConn (env.conn c.id) c object hreliable
    symbolSize dataSymbols
  split
  · next hresult =>
      rw [hresult] at hpublished
      exact { hpublished with still := hpublished.still }
  · next hresult =>
      rw [hresult] at hpublished
      exact hpublished

/-- The alias was found before any symbol was queued. -/
theorem findAlias_of_queuesSymbols (env : ConnEnv) (c : Conn) (object : MoqObject)
    (profile : TrackProfile) (symbolSize dataSymbols : Nat)
    (hqueues : (publishDatagramToConn env c object profile symbolSize
      dataSymbols).2.1.queuesSymbols) :
    ∃ a, c.sendSubscriptions.findAlias object.trackId = some a := by
  simp only [publishDatagramToConn] at hqueues
  repeat' split at hqueues
  all_goals first
    | exact ⟨_, by assumption⟩
    | simp [PublishResult.queuesSymbols] at hqueues

/-- A connection the object is not for is left alone. -/
theorem publishRecipient_ineligible {t : Transport}
    (hineligible : t.recipientEligible c object.trackId = false) (env : FlushEnv)
    (symbolSize dataSymbols : Nat) (inFlush : Bool) :
    t.publishRecipient env object symbolSize dataSymbols inFlush c = (c, .skipped) := by
  simp [publishRecipient, hineligible]

/-! ### Reliable tracks -/

theorem publishes_openTrackStream (env : ConnEnv) (c : Conn) (track : TrackId)
    (object : MoqObject) (geometry : Geometry) :
    Conn.Publishes object geometry c (openTrackStream env c track).1 := by
  simp only [openTrackStream]
  split
  · exact Conn.Publishes.refl _ _ c
  split
  · exact Conn.Publishes.refl _ _ c
  split
  · exact { Conn.Publishes.refl object geometry c with
      still := rfl
      bindings := sameBindings_setStream _ _ _ }
  · exact { Conn.Publishes.refl object geometry c with
      still := rfl
      bindings := sameBindings_setStream _ _ _ }

theorem publishes_quiclyClose {c c' : Conn} (hc : Conn.Publishes object geometry c c')
    (reason : String) :
    Conn.Publishes object geometry c (c'.quiclyClose .resourceLimit reason) := by
  simp only [Conn.quiclyClose]
  split
  · exact hc
  · next hopen =>
      have hclosed : c.closed = none := by
        rcases hc.closed with hsame | ⟨hopen, -⟩
        · exact hsame.symm.trans hopen
        · exact hopen
      exact { hc with
        still := hc.still
        closed := Or.inr ⟨hclosed, reason, rfl⟩ }

theorem publishes_writeObjectFrame (c : Conn) (object : MoqObject) (geometry : Geometry)
    (hreliable : (trackProfile object.trackId).reliable = true) :
    Conn.Publishes object geometry c (writeObjectFrame c object) := by
  simp only [writeObjectFrame]
  split
  · next entry hfind =>
      refine { Conn.Publishes.refl object geometry c with
        still := rfl
        streams := ⟨_, rfl, fun frame hframe => ?_⟩ }
      obtain rfl := List.mem_singleton.mp hframe
      refine ⟨rfl, rfl, ⟨?_, rfl⟩, hreliable⟩
      simp [SubscriptionTable.findAlias, hfind, Conn.sendFrame]
  · refine { Conn.Publishes.refl object geometry c with
      still := rfl
      control := ⟨_, rfl, fun frame hframe => ?_⟩ }
    obtain rfl := List.mem_singleton.mp hframe
    exact ⟨_, rfl⟩

/-- A connection's turn in an attempt; the object is not for every connection. -/
structure Turn (t : Transport) (object : MoqObject) (geometry : Geometry) (c c' : Conn) :
    Prop where
  publishes : Conn.Publishes object geometry c c'
  skipped : t.recipientEligible c object.trackId = false → c' = c

theorem Turn.refl (t : Transport) (object : MoqObject) (geometry : Geometry) (c : Conn) :
    Turn t object geometry c c :=
  ⟨Conn.Publishes.refl _ _ c, fun _ => rfl⟩

instance : Std.Refl (Turn t object geometry) := ⟨Turn.refl _ _ _⟩

/-- The preflight opens streams of connections the object is for. -/
theorem preflight_pointwise {R : Conn → Conn → Prop} (t : Transport) (env : FlushEnv)
    (object : MoqObject) (hrefl : ∀ c, R c c)
    (hopened : ∀ c, t.recipientEligible c object.trackId = true →
      R c (openTrackStream (env.conn c.id) c object.trackId).1)
    (conns : List Conn) (eligible : Nat) :
    List.Forall₂ R conns (t.reliablePreflight env object conns eligible).1 := by
  have hrest : ∀ conns, List.Forall₂ R conns conns := fun conns =>
    List.forall₂_same.mpr fun c _ => hrefl c
  induction conns generalizing eligible with
  | nil => exact .nil
  | cons c rest ih =>
      have hopened := hopened c
      simp only [reliablePreflight]
      split
      · exact .cons (hrefl c) (ih _)
      next heligible =>
      have hfor : t.recipientEligible c object.trackId = true := by simpa using heligible
      split
      · exact .cons (hrefl c) (hrest rest)
      split
      · next hopen =>
          rw [hopen] at hopened
          exact .cons (hopened hfor) (hrest rest)
      · next hopen =>
          rw [hopen] at hopened
          split
          · exact .cons (hopened hfor) (hrest rest)
          · exact .cons (hopened hfor) (ih _)

/-- Frames are written to connections the object is for, the last of which may break. -/
theorem write_pointwise {R : Conn → Conn → Prop} (t : Transport) (env : FlushEnv)
    (object : MoqObject) (hrefl : ∀ c, R c c)
    (hwritten : ∀ c, t.recipientEligible c object.trackId = true →
      R c (writeObjectFrame c object))
    (hbroken : ∀ c, t.recipientEligible c object.trackId = true →
      R c ((writeObjectFrame c object).quiclyClose .resourceLimit
        "reliable control queue exhausted"))
    (conns : List Conn) (delivered : Nat) :
    List.Forall₂ R conns (t.reliableWrite env object conns delivered).1 := by
  have hrest : ∀ conns, List.Forall₂ R conns conns := fun conns =>
    List.forall₂_same.mpr fun c _ => hrefl c
  induction conns generalizing delivered with
  | nil => exact .nil
  | cons c rest ih =>
      simp only [reliableWrite]
      split
      · exact .cons (hrefl c) (ih _)
      next heligible =>
      have hfor : t.recipientEligible c object.trackId = true := by simpa using heligible
      split
      · exact .cons (hrefl c) (hrest rest)
      · exact .cons (hbroken c hfor) (hrest rest)
      · exact .cons (hwritten c hfor) (ih _)

theorem turn_preflight (t : Transport) (env : FlushEnv) (object : MoqObject)
    (geometry : Geometry) (conns : List Conn) (eligible : Nat) :
    List.Forall₂ (Turn t object geometry) conns
      (t.reliablePreflight env object conns eligible).1 :=
  preflight_pointwise t env object (Turn.refl t object geometry)
    (fun c hfor => ⟨publishes_openTrackStream (env.conn c.id) c object.trackId object geometry,
      fun hskip => by simp [hfor] at hskip⟩) conns eligible

theorem turn_write (t : Transport) (env : FlushEnv) (object : MoqObject)
    (geometry : Geometry) (hreliable : (trackProfile object.trackId).reliable = true)
    (conns : List Conn) (delivered : Nat) :
    List.Forall₂ (Turn t object geometry) conns
      (t.reliableWrite env object conns delivered).1 := by
  have hwritten := fun c => publishes_writeObjectFrame c object geometry hreliable
  exact write_pointwise t env object (Turn.refl t object geometry)
    (fun c hfor => ⟨hwritten c, fun hskip => by simp [hfor] at hskip⟩)
    (fun c hfor => ⟨publishes_quiclyClose (hwritten c) _, fun hskip => by
      simp [hfor] at hskip⟩) conns delivered

theorem Turn.trans (hfirst : Turn t object geometry c c')
    (hsecond : Turn t object geometry c' c'') : Turn t object geometry c c'' where
  publishes := hfirst.publishes.trans hsecond.publishes
  skipped := by
    intro hskip
    obtain rfl := hfirst.skipped hskip
    exact hsecond.skipped hskip

/-! ### The whole attempt -/

def objectGeometry (t : Transport) (object : MoqObject) : Geometry where
  symbolSize := t.objectSymbolSize object
  dataSymbols := t.objectDataSymbols object
  originalSize := object.size

theorem objectDataSymbols_pos {t : Transport} (hsize : object.size ≠ 0) :
    0 < t.objectDataSymbols object := by
  have hsymbol : 0 < t.objectSymbolSize object := by
    have hunit : 0 < t.datagramSymbolSize := by
      simp only [datagramSymbolSize]
      split <;> split <;> omega
    simp only [objectSymbolSize]
    omega
  exact Nat.div_pos (by omega) hsymbol

/-- The transport after an attempt to publish an object.  The cache retains a
rateless DATA object whose symbols a recipient got, or had got in an earlier
attempt of the flush. -/
structure Attempted (object : MoqObject) (geometry : Geometry) (inFlush : Bool)
    (t t' : Transport) : Prop where
  grouping : SameGrouping t t'
  conns : List.Forall₂ (Turn t object geometry) t.conns t'.conns
  cache : t'.sentCache = t.sentCache ∨
    (object.trackId.isRatelessData = true ∧
      (trackProfile object.trackId).reliable = false ∧
      (inFlush = true ∨ ∃ c ∈ t.conns, t.recipientEligible c object.trackId = true ∧
        ∃ a, c.sendSubscriptions.findAlias object.trackId = some a) ∧
      ∃ stored, SentCache.Stores t.sentCache t'.sentCache object geometry.dataSymbols
        geometry.symbolSize (!checkpointCacheIsProtected object.trackId t.conns false)
        stored)

theorem Attempted.refl (object : MoqObject) (geometry : Geometry) (inFlush : Bool)
    (t : Transport) : Attempted object geometry inFlush t t :=
  ⟨SameGrouping.refl t, List.forall₂_refl _, Or.inl rfl⟩

theorem attempted_publishReliable (t : Transport) (env : FlushEnv) (object : MoqObject)
    (hreliable : (trackProfile object.trackId).reliable = true) (geometry : Geometry)
    (inFlush : Bool) :
    Attempted object geometry inFlush t (t.publishReliable env object).1 := by
  refine ⟨publishReliable_grouping t env object, ?_, ?_⟩
  · have hchecked := turn_preflight t env object geometry t.conns 0
    simp only [publishReliable]
    split
    · exact List.forall₂_refl _
    split
    · next hpreflight =>
        rw [hpreflight] at hchecked
        exact hchecked
    · next conns eligible hpreflight =>
        rw [hpreflight] at hchecked
        have hwritten := turn_write t env object geometry hreliable conns 0
        have hboth : List.Forall₂ (Turn t object geometry) t.conns
            (t.reliableWrite env object conns 0).1 :=
          Pointwise.comp (fun _ _ _ hfirst hsecond => hfirst.trans hsecond) hchecked hwritten
        split
        · next hwrite =>
            rw [hwrite] at hboth
            exact hboth
        · next hwrite =>
            rw [hwrite] at hboth
            exact hboth
  · left
    simp only [publishReliable]
    split
    · rfl
    split
    · rfl
    · split <;> rfl

theorem turn_publishRecipient (t : Transport) (env : FlushEnv) (object : MoqObject)
    (hreliable : (trackProfile object.trackId).reliable = false) (inFlush : Bool)
    (c : Conn) :
    Turn t object (t.objectGeometry object) c
      (t.publishRecipient env object (t.objectSymbolSize object)
        (t.objectDataSymbols object) inFlush c).1 where
  publishes := publishes_publishRecipient t env object hreliable _ _ inFlush c
  skipped := fun hskip => by rw [publishRecipient_ineligible hskip]

/-- A recipient that counts got its symbols in an earlier attempt of the flush or has them
queued now. -/
theorem served_of_tally {t : Transport} {env : FlushEnv} {inFlush : Bool}
    (htally : (t.recipientTally env object inFlush).delivered ≠ 0 ∨
      (t.recipientTally env object inFlush).partiallyQueued = true) :
    ∃ c ∈ t.conns, t.recipientEligible c object.trackId = true ∧
      (inFlush = true ∧ c.fecGroupDelivered = true ∨
        (publishDatagramToConn (env.conn c.id) c object (trackProfile object.trackId)
          (t.objectSymbolSize object) (t.objectDataSymbols object)).2.1.queuesSymbols) := by
  have hturn : ∀ c ∈ t.conns, ∀ outcome,
      (t.publishRecipient env object (t.objectSymbolSize object)
        (t.objectDataSymbols object) inFlush c).2 = outcome →
      outcome.delivers ∨ outcome.result? = some .partialDelivery →
      t.recipientEligible c object.trackId = true ∧
        (inFlush = true ∧ c.fecGroupDelivered = true ∨
          (publishDatagramToConn (env.conn c.id) c object (trackProfile object.trackId)
            (t.objectSymbolSize object) (t.objectDataSymbols object)).2.1.queuesSymbols) := by
    rintro c hc outcome rfl hqueued
    cases heligible : t.recipientEligible c object.trackId with
    | false =>
        rw [publishRecipient_ineligible heligible] at hqueued
        simp [RecipientOutcome.delivers, RecipientOutcome.result?] at hqueued
    | true =>
        refine ⟨rfl, ?_⟩
        simp only [publishRecipient, heligible, Bool.not_true, Bool.false_eq_true, if_false]
          at hqueued
        split at hqueued
        · next hserved => exact Or.inl (by simpa using hserved)
        split at hqueued
        · simp [RecipientOutcome.delivers, RecipientOutcome.result?] at hqueued
        · right
          rcases hsent : publishDatagramToConn (env.conn c.id) c object
            (trackProfile object.trackId) (t.objectSymbolSize object)
            (t.objectDataSymbols object) with ⟨sender, result, symbols⟩
          rw [hsent] at hqueued
          cases result <;> simp_all [PublishResult.queuesSymbols]
  have hmem : ∀ outcome ∈ (t.recipientTurns env object inFlush).map Prod.snd,
      outcome.delivers ∨ outcome.result? = some .partialDelivery →
      ∃ c ∈ t.conns, t.recipientEligible c object.trackId = true ∧
        (inFlush = true ∧ c.fecGroupDelivered = true ∨
          (publishDatagramToConn (env.conn c.id) c object (trackProfile object.trackId)
            (t.objectSymbolSize object) (t.objectDataSymbols object)).2.1.queuesSymbols) := by
    intro outcome houtcome hqueued
    simp only [recipientTurns, List.map_map, List.mem_map, Function.comp_apply] at houtcome
    obtain ⟨c, hc, heq⟩ := houtcome
    exact ⟨c, hc, hturn c hc outcome heq hqueued⟩
  rcases htally with hdelivered | hpartly
  · rw [recipientTally, ne_eq, tally_delivered] at hdelivered
    simp only [true_and, not_forall, not_not] at hdelivered
    obtain ⟨outcome, houtcome, hdelivers⟩ := hdelivered
    exact hmem outcome houtcome (Or.inl hdelivers)
  · rw [recipientTally, tally_partial] at hpartly
    rcases hpartly with hfalse | ⟨outcome, houtcome, hpart⟩
    · simp at hfalse
    · exact hmem outcome houtcome (Or.inr hpart)

/-- Symbols that a recipient got in a flush or were queued for a recipient now. -/
theorem attempt_of_tally {t : Transport} {env : FlushEnv} {inFlush : Bool}
    (htally : (t.recipientTally env object inFlush).delivered ≠ 0 ∨
      (t.recipientTally env object inFlush).partiallyQueued = true) :
    inFlush = true ∨ ∃ c ∈ t.conns, t.recipientEligible c object.trackId = true ∧
      (publishDatagramToConn (env.conn c.id) c object (trackProfile object.trackId)
        (t.objectSymbolSize object) (t.objectDataSymbols object)).2.1.queuesSymbols := by
  obtain ⟨c, hc, heligible, hserved | hqueues⟩ := served_of_tally htally
  · exact Or.inl hserved.1
  · exact Or.inr ⟨c, hc, heligible, hqueues⟩

/-- An object some recipient got symbols of has a recipient. -/
theorem recipient_of_tally {t : Transport} {env : FlushEnv} {inFlush : Bool}
    (htally : (t.recipientTally env object inFlush).delivered ≠ 0 ∨
      (t.recipientTally env object inFlush).partiallyQueued = true) :
    inFlush = true ∨ ∃ c ∈ t.conns, t.recipientEligible c object.trackId = true ∧
      ∃ a, c.sendSubscriptions.findAlias object.trackId = some a := by
  cases attempt_of_tally htally with
  | inl hflush => exact Or.inl hflush
  | inr hattempt =>
      obtain ⟨c, hc, heligible, hqueues⟩ := hattempt
      exact Or.inr ⟨c, hc, heligible, findAlias_of_queuesSymbols _ c object _ _ _ hqueues⟩

theorem attempted_publishDatagrams (t : Transport) (env : FlushEnv) (object : MoqObject)
    (hreliable : (trackProfile object.trackId).reliable = false) (inFlush : Bool) :
    Attempted object (t.objectGeometry object) inFlush t
      (t.publishDatagrams env object inFlush).1 := by
  have hgrouping := publishDatagrams_grouping t env object inFlush
  have hturns : List.Forall₂ (Turn t object (t.objectGeometry object)) t.conns
      ((t.recipientTurns env object inFlush).map Prod.fst) := by
    rw [recipientTurns, List.map_map]
    exact Pointwise.of_map fun c _ => turn_publishRecipient t env object hreliable inFlush c
  simp only [publishDatagrams] at hgrouping ⊢
  split
  · exact Attempted.refl _ _ _ t
  next hsize =>
  rw [if_neg hsize] at hgrouping
  split
  · exact Attempted.refl _ _ _ t
  next hroom =>
  rw [if_neg hroom] at hgrouping
  refine ⟨hgrouping, hturns, ?_⟩
  simp only [retainSent]
  split
  · next hretained =>
      simp only [Bool.and_eq_true, Bool.or_eq_true, bne_iff_ne] at hretained
      have hprotect : (object.trackId.isRatelessData &&
          checkpointCacheIsProtected object.trackId t.conns false) =
          checkpointCacheIsProtected object.trackId t.conns false := by
        rw [hretained.1, Bool.true_and]
      rw [hprotect]
      exact Or.inr ⟨hretained.1, hreliable, recipient_of_tally hretained.2, _,
        SentCache.stores_store t.sentCache object
          (t.recipientTally env object inFlush).maximumSentSymbols
          (t.objectDataSymbols object) (t.objectSymbolSize object)
          (!checkpointCacheIsProtected object.trackId t.conns false) env.storeAllocates
          fun _ => false⟩
  · exact Or.inl rfl

theorem attempted_publishUngrouped (t : Transport) (env : FlushEnv) (object : MoqObject)
    (inFlush : Bool) :
    Attempted object (t.objectGeometry object) inFlush t
      (t.publishUngrouped env object inFlush).1 := by
  simp only [publishUngrouped]
  split
  · exact Attempted.refl _ _ _ t
  split
  · next hreliable => exact attempted_publishReliable t env object hreliable _ inFlush
  · next hreliable =>
      exact attempted_publishDatagrams t env object (by simpa using hreliable) inFlush

end Transport

end Qlinq
