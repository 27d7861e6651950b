import Qlinq.PublishEffects

namespace Qlinq

open SubscriptionTable (SameBindings sameBindings_setStream)

/-! What one attempt at the buffered group offers to each connection. -/

/-- The queued datagrams are all symbols of one encoding, in order. -/
def isSymbolSet : List (Sent Datagram) → Bool
  | [] => false
  | first :: rest =>
      (first :: rest).map (·.message.header.symbolIndex) ==
        List.range first.message.header.totalSymbols

/-- Datagrams queued on the connection since it was `c`. -/
def Conn.queuedSince (c c' : Conn) : List (Sent Datagram) :=
  c'.datagrams.drop c.datagrams.length

def Conn.gotSymbolSet (c c' : Conn) : Bool := isSymbolSet (c.queuedSince c')

/-- One frame with the object's bytes was written for the connection since it was `c`. -/
def Conn.gotFrame (object : MoqObject) (c c' : Conn) : Bool :=
  (c'.streams.drop c.streams.length).map (·.2.message.payload) == [object.data]

theorem isSymbolSet_iff {queued : List (Sent Datagram)} (htotal : 0 < total)
    (hheader : ∀ packet ∈ queued, packet.message.header.totalSymbols = total) :
    isSymbolSet queued = true ↔
      queued.map (·.message.header.symbolIndex) = List.range total := by
  cases queued with
  | nil =>
      cases total with
      | zero => exact absurd htotal (lt_irrefl 0)
      | succ total => simp [isSymbolSet, List.range_succ]
  | cons first rest =>
      have hfirst := hheader first List.mem_cons_self
      simp only [isSymbolSet, hfirst, beq_iff_eq]

theorem gotSymbolSet_of_datagrams {c c' : Conn} (hsame : c'.datagrams = c.datagrams) :
    c.gotSymbolSet c' = false := by
  unfold Conn.gotSymbolSet Conn.queuedSince
  rw [hsame, List.drop_length]
  rfl

namespace Conn

/-- The mark stays, and the connection is not reopened. -/
structure KeepsMark (c c' : Conn) : Prop where
  id_eq : c'.id = c.id
  still_open : c'.closed = none → c.closed = none
  mark : c'.fecGroupDelivered = c.fecGroupDelivered

namespace KeepsMark

variable {c c' c'' : Conn}

theorem refl (c : Conn) : KeepsMark c c := ⟨rfl, fun h => h, rfl⟩

theorem trans (hfirst : KeepsMark c c') (hsecond : KeepsMark c' c'') : KeepsMark c c'' :=
  ⟨hsecond.id_eq.trans hfirst.id_eq, fun h => hfirst.still_open (hsecond.still_open h),
    hsecond.mark.trans hfirst.mark⟩

theorem quiclyClose (c : Conn) (code : AppError) (reason : String) :
    KeepsMark c (c.quiclyClose code reason) := by
  unfold Conn.quiclyClose
  split
  · exact .refl c
  · exact ⟨rfl, (fun h => by cases h), rfl⟩

end KeepsMark

end Conn

open Conn (KeepsMark)

/-! ### One connection -/

/-- The symbols are queued in order until one is not taken; only the last one makes the
attempt a delivery. -/
theorem enqueueSymbols_prefix (env : ConnEnv) (active : List PathEnv) (schedule : Schedule)
    (packet : Nat → Nat → Sent Datagram) (symbols : List Nat) (queued : List (Sent Datagram)) :
    ∃ taken fresh, taken <+: symbols ∧
      (enqueueSymbols env active schedule packet symbols queued).1 = queued ++ fresh ∧
      List.Forall₂ (fun symbol sent => ∃ mapped, sent = packet symbol mapped) taken fresh ∧
      ((enqueueSymbols env active schedule packet symbols queued).2 = .delivered ↔
        taken = symbols) := by
  have hstopped : ∀ (queued : List (Sent Datagram)) (symbol : Nat) (rest : List Nat)
      (result : PublishResult), result ≠ .delivered →
      ∃ taken fresh, taken <+: symbol :: rest ∧ queued = queued ++ fresh ∧
        List.Forall₂ (fun symbol sent => ∃ mapped, sent = packet symbol mapped) taken fresh ∧
        (result = .delivered ↔ taken = symbol :: rest) := by
    intro queued symbol rest result hresult
    exact ⟨[], [], List.nil_prefix, (List.append_nil queued).symm, .nil, by simp [hresult]⟩
  induction symbols generalizing queued with
  | nil => exact ⟨[], [], List.prefix_rfl, (List.append_nil queued).symm, .nil, by
      simp [enqueueSymbols]⟩
  | cons symbol rest ih =>
      have hfailure : (if queued.isEmpty then PublishResult.error else .partialDelivery) ≠
          .delivered := by
        split <;> simp
      unfold enqueueSymbols
      extract_lets stopped
      split
      · exact hstopped queued symbol rest stopped hfailure
      split
      · exact hstopped queued symbol rest stopped hfailure
      next path _ =>
      extract_lets waiting
      split
      · exact hstopped queued symbol rest stopped hfailure
      split
      · exact hstopped queued symbol rest _ (by split <;> simp)
      · obtain ⟨taken, fresh, hprefix, hqueued, hpackets, hdelivered⟩ :=
          ih (queued ++ [packet symbol path.mapped])
        refine ⟨symbol :: taken, packet symbol path.mapped :: fresh,
          List.cons_prefix_cons.mpr ⟨rfl, hprefix⟩, ?_, .cons ⟨_, rfl⟩ hpackets, ?_⟩
        · rw [hqueued, List.append_assoc]
          rfl
        · rw [hdelivered, List.cons.injEq]
          simp only [true_and]

theorem gotSymbolSet_publishDatagramToConn (env : ConnEnv) (c : Conn) (object : MoqObject)
    (profile : TrackProfile) (symbolSize : Nat) (hdata : 0 < dataSymbols) :
    c.gotSymbolSet (publishDatagramToConn env c object profile symbolSize dataSymbols).1 =
        true ↔
      (publishDatagramToConn env c object profile symbolSize dataSymbols).2.1 =
        .delivered := by
  have hnothing : ∀ (cursor : Nat) (result : PublishResult), result ≠ .delivered →
      (c.gotSymbolSet { c with roundRobinPath := cursor } = true ↔ result = .delivered) := by
    intro cursor result hresult
    have hnone : c.gotSymbolSet { c with roundRobinPath := cursor } = false :=
      gotSymbolSet_of_datagrams rfl
    simp [hnone, hresult]
  unfold publishDatagramToConn
  extract_lets active
  split
  · exact hnothing c.roundRobinPath .backpressure (by simp)
  split
  · exact hnothing _ .error (by simp)
  · exact hnothing _ .backpressure (by simp)
  next planned schedule cursor _ =>
  extract_lets sender totalSymbols
  split
  · exact hnothing cursor .invalid (by simp)
  split
  · exact hnothing cursor .error (by simp)
  split
  · exact hnothing cursor .error (by simp)
  split
  · exact hnothing cursor .error (by simp)
  next blocks _ =>
  split
  · exact hnothing cursor .noRecipients (by simp)
  next a _ =>
  obtain ⟨taken, fresh, hprefix, hqueued, hpackets, hdelivered⟩ := enqueueSymbols_prefix env
    planned schedule (fecPacket sender object a symbolSize dataSymbols totalSymbols blocks)
    (List.range totalSymbols) []
  have hindices : fresh.map (·.message.header.symbolIndex) = taken := by
    clear hprefix hqueued hdelivered
    induction hpackets with
    | nil => rfl
    | cons hhead _ ih =>
        obtain ⟨mapped, rfl⟩ := hhead
        rw [List.map_cons, ih]
        rfl
  have hheader : ∀ packet ∈ fresh, packet.message.header.totalSymbols = totalSymbols := by
    intro packet hpacket
    obtain ⟨symbol, _, mapped, rfl⟩ := Pointwise.exists_left hpackets hpacket
    rfl
  have hfresh : c.queuedSince { sender with datagrams := sender.datagrams ++ fresh } =
      fresh :=
    List.drop_left
  rcases henqueue : enqueueSymbols env planned schedule
    (fecPacket sender object a symbolSize dataSymbols totalSymbols blocks)
    (List.range totalSymbols) [] with ⟨queued, result⟩
  rw [henqueue] at hqueued hdelivered
  simp only [List.nil_append] at hqueued hdelivered ⊢
  subst hqueued
  unfold Conn.gotSymbolSet
  rw [hfresh, isSymbolSet_iff (Nat.lt_of_lt_of_le hdata (Nat.le_add_right _ _)) hheader,
    hindices, hdelivered]

theorem enqueueSymbols_ne_noRecipients (symbols : List Nat) (queued : List (Sent Datagram)) :
    (enqueueSymbols env active schedule packet symbols queued).2 ≠ .noRecipients := by
  induction symbols generalizing queued with
  | nil => simp [enqueueSymbols]
  | cons symbol rest ih =>
      have hstopped : (if queued.isEmpty then PublishResult.error else .partialDelivery) ≠
          .noRecipients := by
        split <;> simp
      simp only [enqueueSymbols]
      split
      · exact hstopped
      split
      · exact hstopped
      split
      · exact hstopped
      split
      · split <;> simp
      · exact ih _

theorem findAlias_of_noRecipients (env : ConnEnv) (c : Conn) (object : MoqObject)
    (profile : TrackProfile) (symbolSize dataSymbols : Nat)
    (hresult : (publishDatagramToConn env c object profile symbolSize dataSymbols).2.1 =
      .noRecipients) : c.sendSubscriptions.findAlias object.trackId = none := by
  simp only [publishDatagramToConn] at hresult
  repeat' split at hresult
  all_goals first
    | assumption
    | exact absurd hresult (enqueueSymbols_ne_noRecipients _ _)
    | simp at hresult

/-! ### All connections -/

namespace Transport

/-- A connection's turn in an attempt.  In a flush the mark records a whole symbol set
and keeps the next one away. -/
structure Offered (t : Transport) (object : MoqObject) (inFlush : Bool) (c c' : Conn) :
    Prop where
  id_eq : c'.id = c.id
  still_open : c'.closed = none → c.closed = none
  marked : c'.fecGroupDelivered = (c.fecGroupDelivered || inFlush && c.gotSymbolSet c')
  eligible : c.gotSymbolSet c' = true → t.recipientEligible c object.trackId = true
  once : c.gotSymbolSet c' = true → inFlush = true → c.fecGroupDelivered = false

/-- A turn that queues no datagram and leaves the mark. -/
theorem Offered.of_keeps {t : Transport} {c c' : Conn} (hkeeps : KeepsMark c c')
    (hdatagrams : c'.datagrams = c.datagrams) : Offered t object inFlush c c' := by
  have hnone := gotSymbolSet_of_datagrams hdatagrams
  refine ⟨hkeeps.id_eq, hkeeps.still_open, ?_, fun hgot => ?_, fun hgot => ?_⟩
  · rw [hnone, Bool.and_false, Bool.or_false, hkeeps.mark]
  · rw [hnone] at hgot
    cases hgot
  · rw [hnone] at hgot
    cases hgot

theorem Offered.refl (t : Transport) (object : MoqObject) (inFlush : Bool) (c : Conn) :
    Offered t object inFlush c c :=
  .of_keeps (.refl c) rfl

theorem publishDatagramToConn_mark (env : ConnEnv) (c : Conn) (object : MoqObject)
    (profile : TrackProfile) (symbolSize dataSymbols : Nat) :
    (publishDatagramToConn env c object profile symbolSize dataSymbols).1.fecGroupDelivered =
      c.fecGroupDelivered := by
  simp only [publishDatagramToConn]
  repeat' split
  all_goals rfl

theorem offered_publishRecipient (t : Transport) (env : FlushEnv) (object : MoqObject)
    (hreliable : (trackProfile object.trackId).reliable = false) (hsize : object.size ≠ 0)
    (inFlush : Bool) (c : Conn) :
    Offered t object inFlush c
      (t.publishRecipient env object (t.objectSymbolSize object)
        (t.objectDataSymbols object) inFlush c).1 := by
  unfold publishRecipient
  split
  · exact .refl t object inFlush c
  next heligible =>
  have heligible : t.recipientEligible c object.trackId = true := by simpa using heligible
  split
  · exact .refl t object inFlush c
  next hmark =>
  have hunmarked : inFlush = true → c.fecGroupDelivered = false := by simpa using hmark
  split
  · exact .refl t object inFlush c
  have hpublishes := publishes_publishDatagramToConn (env.conn c.id) c object hreliable
    (t.objectSymbolSize object) (t.objectDataSymbols object)
  have hgot := gotSymbolSet_publishDatagramToConn (env.conn c.id) c object
    (trackProfile object.trackId) (t.objectSymbolSize object)
    (objectDataSymbols_pos (t := t) hsize)
  have hmarked := publishDatagramToConn_mark (env.conn c.id) c object
    (trackProfile object.trackId) (t.objectSymbolSize object) (t.objectDataSymbols object)
  have hopen : ∀ c' : Conn, Conn.Publishes object
      ⟨t.objectSymbolSize object, t.objectDataSymbols object, object.size⟩ c c' →
      c'.closed = none → c.closed = none := by
    intro c' hpublishes hopen
    cases hpublishes.closed with
    | inl hsame => exact hsame.symm.trans hopen
    | inr hclosed => exact hclosed.1
  split
  · next c' sent hanswer =>
      rw [hanswer] at hpublishes hgot hmarked
      have hset : c.gotSymbolSet c' = true := hgot.mpr rfl
      refine ⟨hpublishes.id_eq, hopen c' hpublishes, ?_, fun _ => heligible,
        fun _ => hunmarked⟩
      show (c'.fecGroupDelivered || inFlush) =
        (c.fecGroupDelivered || inFlush && c.gotSymbolSet c')
      rw [hset, hmarked, Bool.and_true]
  · next c' result sent hother hanswer =>
      rw [hanswer] at hpublishes hgot hmarked
      have hset : c.gotSymbolSet c' = false := by
        cases hgotten : c.gotSymbolSet c' with
        | false => rfl
        | true => exact absurd (hgot.mp hgotten) hother
      refine ⟨hpublishes.id_eq, hopen c' hpublishes, ?_, fun _ => heligible,
        fun _ => hunmarked⟩
      show c'.fecGroupDelivered = (c.fecGroupDelivered || inFlush && c.gotSymbolSet c')
      rw [hset, hmarked, Bool.and_false, Bool.or_false]

theorem offered_publishDatagrams (t : Transport) (env : FlushEnv) (object : MoqObject)
    (hreliable : (trackProfile object.trackId).reliable = false) (inFlush : Bool) :
    List.Forall₂ (Offered t object inFlush) t.conns
      (t.publishDatagrams env object inFlush).1.conns := by
  have hidle : List.Forall₂ (Offered t object inFlush) t.conns t.conns :=
    List.forall₂_same.mpr fun c _ => .refl t object inFlush c
  unfold publishDatagrams
  split
  · exact hidle
  next hlimits =>
  have hsize : object.size ≠ 0 := fun h => hlimits (Or.inl h)
  extract_lets cached protectCache tally
  split
  · exact hidle
  · show List.Forall₂ _ t.conns ((t.recipientTurns env object inFlush).map Prod.fst)
    rw [recipientTurns, List.map_map]
    exact Pointwise.of_map fun c _ =>
      offered_publishRecipient t env object hreliable hsize inFlush c

/-! Reliable tracks have no symbols: their frames leave marks and datagrams alone. -/

theorem openTrackStream_only (env : ConnEnv) (c : Conn) (track : TrackId) :
    ∃ table next, SameBindings c.sendSubscriptions table ∧
      (openTrackStream env c track).1 =
        { c with sendSubscriptions := table, nextStream := next } := by
  unfold openTrackStream
  split
  · exact ⟨_, _, SameBindings.refl _, rfl⟩
  split
  · exact ⟨_, _, SameBindings.refl _, rfl⟩
  split
  · exact ⟨_, _, sameBindings_setStream _ _ _, rfl⟩
  · exact ⟨_, c.nextStream, sameBindings_setStream _ _ _, rfl⟩

theorem keepsMark_openTrackStream (env : ConnEnv) (c : Conn) (track : TrackId) :
    KeepsMark c (openTrackStream env c track).1 ∧
      (openTrackStream env c track).1.datagrams = c.datagrams := by
  obtain ⟨table, next, _, honly⟩ := openTrackStream_only env c track
  rw [honly]
  exact ⟨⟨rfl, fun h => h, rfl⟩, rfl⟩

theorem keepsMark_writeObjectFrame (c : Conn) (object : MoqObject) :
    KeepsMark c (writeObjectFrame c object) ∧
      (writeObjectFrame c object).datagrams = c.datagrams := by
  unfold writeObjectFrame
  split
  · exact ⟨⟨rfl, fun h => h, rfl⟩, rfl⟩
  · exact ⟨⟨rfl, fun h => h, rfl⟩, rfl⟩

theorem datagrams_quiclyClose (c : Conn) (code : AppError) (reason : String) :
    (c.quiclyClose code reason).datagrams = c.datagrams := by
  unfold Conn.quiclyClose
  split <;> rfl

theorem keepsMark_publishReliable (t : Transport) (env : FlushEnv) (object : MoqObject) :
    List.Forall₂ (fun c c' => KeepsMark c c' ∧ c'.datagrams = c.datagrams) t.conns
      (t.publishReliable env object).1.conns := by
  have hrefl : ∀ c : Conn, KeepsMark c c ∧ c.datagrams = c.datagrams :=
    fun c => ⟨.refl c, rfl⟩
  have hidle : List.Forall₂ (fun c c' => KeepsMark c c' ∧ c'.datagrams = c.datagrams)
      t.conns t.conns :=
    List.forall₂_same.mpr fun c _ => hrefl c
  have hchecked := preflight_pointwise
    (R := fun c c' => KeepsMark c c' ∧ c'.datagrams = c.datagrams) t env object hrefl
    (fun c _ => keepsMark_openTrackStream (env.conn c.id) c object.trackId) t.conns 0
  unfold publishReliable
  split
  · exact hidle
  split
  · next hpreflight =>
      rw [hpreflight] at hchecked
      exact hchecked
  next conns eligible hpreflight =>
  rw [hpreflight] at hchecked
  have hwritten := write_pointwise
    (R := fun c c' => KeepsMark c c' ∧ c'.datagrams = c.datagrams) t env object hrefl
    (fun c _ => keepsMark_writeObjectFrame c object)
    (fun c _ => ⟨(keepsMark_writeObjectFrame c object).1.trans (.quiclyClose _ _ _),
      (datagrams_quiclyClose _ _ _).trans (keepsMark_writeObjectFrame c object).2⟩) conns 0
  have hboth := Pointwise.comp (T := fun c c' => KeepsMark c c' ∧ c'.datagrams = c.datagrams)
    (fun _ _ _ hfirst hsecond => ⟨hfirst.1.trans hsecond.1, hsecond.2.trans hfirst.2⟩)
    hchecked hwritten
  split
  · next hwrite =>
      rw [hwrite] at hboth
      exact hboth
  · next hwrite =>
      rw [hwrite] at hboth
      exact hboth

theorem offered_publishUngrouped (t : Transport) (env : FlushEnv) (object : MoqObject)
    (inFlush : Bool) :
    List.Forall₂ (Offered t object inFlush) t.conns
      (t.publishUngrouped env object inFlush).1.conns := by
  unfold publishUngrouped
  split
  · exact List.forall₂_same.mpr fun c _ => .refl t object inFlush c
  split
  · exact (keepsMark_publishReliable t env object).imp fun _ _ hkeeps =>
      .of_keeps hkeeps.1 hkeeps.2
  · next hreliable =>
      exact offered_publishDatagrams t env object (by simpa using hreliable) inFlush

/-! ### A group that gets out

Only an attempt that reaches everybody it is for lets its group leave the buffer. -/

/-- The recipient counts as one that does not have the object. -/
def RecipientOutcome.lags : RecipientOutcome → Bool
  | .skipped => false
  | .alreadyDelivered => false
  | .tooLarge => true
  | .attempted result _ => result != .delivered && result != .noRecipients

theorem tally_lags (outcomes : List RecipientOutcome) (start : Tally) :
    (outcomes.foldl Tally.count start).eligible + start.delivered =
      (outcomes.foldl Tally.count start).delivered + start.eligible +
        outcomes.countP RecipientOutcome.lags := by
  induction outcomes generalizing start with
  | nil => exact Nat.add_comm _ _
  | cons outcome rest ih =>
      have hrest := ih (start.count outcome)
      have hhead : (start.count outcome).eligible + start.delivered =
          (start.count outcome).delivered + start.eligible +
            (if outcome.lags then 1 else 0) := by
        cases outcome with
        | attempted result sent =>
            cases result <;> simp [Tally.count, RecipientOutcome.lags] <;> omega
        | _ =>
            simp [Tally.count, RecipientOutcome.lags]
            omega
      rw [List.foldl_cons, List.countP_cons]
      omega

theorem tally_failure_refuses (outcomes : List RecipientOutcome) (start : Tally)
    (hstart : start.failure ≠ .delivered ∧ start.failure ≠ .noRecipients) :
    (outcomes.foldl Tally.count start).failure ≠ .delivered ∧
      (outcomes.foldl Tally.count start).failure ≠ .noRecipients := by
  induction outcomes generalizing start with
  | nil => exact hstart
  | cons outcome rest ih =>
      refine ih _ ?_
      cases outcome with
      | attempted result sent => cases result <;> simp [Tally.count, hstart]
      | _ => simp [Tally.count, hstart]

theorem nobody_lags {t : Transport} {stored : Bool}
    (hresult : (t.recipientTally env object inFlush).result stored = .delivered ∨
      (t.recipientTally env object inFlush).result stored = .noRecipients) :
    ∀ outcome ∈ (t.recipientTurns env object inFlush).map Prod.snd,
      outcome.lags = false := by
  unfold recipientTally at hresult
  have hlags := tally_lags ((t.recipientTurns env object inFlush).map Prod.snd)
    { maximumSentSymbols := t.objectDataSymbols object }
  have hfailure := tally_failure_refuses ((t.recipientTurns env object inFlush).map Prod.snd)
    { maximumSentSymbols := t.objectDataSymbols object } (by simp)
  generalize ((t.recipientTurns env object inFlush).map Prod.snd) = outcomes at *
  generalize outcomes.foldl Tally.count _ = tally at *
  simp only [Nat.add_zero] at hlags
  have heven : tally.delivered = tally.eligible := by
    unfold Tally.result at hresult
    split at hresult
    · split at hresult <;> simp at hresult
    split at hresult
    · simp at hresult
    split at hresult
    · next hnone =>
        split at hresult
        · next hnobody => rw [hnone, hnobody]
        · cases hresult with
          | inl hsame => exact absurd hsame hfailure.1
          | inr hsame => exact absurd hsame hfailure.2
    split at hresult
    · assumption
    · simp at hresult
  have hzero : outcomes.countP RecipientOutcome.lags = 0 := by omega
  intro outcome houtcome
  simpa using List.countP_eq_zero.mp hzero outcome houtcome

/-- An eligible subscriber that does not lag carries the mark. -/
theorem marked_of_turn (t : Transport) (env : FlushEnv) (object : MoqObject)
    (symbolSize dataSymbols : Nat) (c : Conn)
    (heligible : t.recipientEligible c object.trackId = true)
    (hcontains : c.sendSubscriptions.contains object.trackId = true)
    (hlags : (t.publishRecipient env object symbolSize dataSymbols true c).2.lags = false) :
    (t.publishRecipient env object symbolSize dataSymbols true c).1.fecGroupDelivered =
      true := by
  have hfound := findAlias_of_noRecipients (env.conn c.id) c object
    (trackProfile object.trackId) symbolSize dataSymbols
  unfold publishRecipient at hlags ⊢
  simp only [heligible, Bool.not_true, Bool.false_eq_true, if_false, Bool.true_and] at hlags ⊢
  split at hlags
  · next hmark => simp [hmark]
  next hmark =>
  rw [if_neg hmark]
  split at hlags
  · cases hlags
  next hlarge =>
  rw [if_neg hlarge]
  rcases hanswer : publishDatagramToConn (env.conn c.id) c object
    (trackProfile object.trackId) symbolSize dataSymbols with ⟨c', result, sent⟩
  rw [hanswer] at hfound hlags
  cases result with
  | delivered => exact Bool.or_true _
  | noRecipients =>
      obtain ⟨a, halias⟩ := SubscriptionTable.contains_iff_findAlias.mp hcontains
      rw [hfound rfl] at halias
      cases halias
  | _ => cases hlags

theorem marked_publishDatagrams {t : Transport}
    (hresult : (t.publishDatagrams env object true).2 = .delivered ∨
      (t.publishDatagrams env object true).2 = .noRecipients) :
    List.Forall₂ (fun c c' => t.recipientEligible c object.trackId = true →
        c.sendSubscriptions.contains object.trackId = true → c'.fecGroupDelivered = true)
      t.conns (t.publishDatagrams env object true).1.conns := by
  simp only [publishDatagrams] at hresult ⊢
  split at hresult
  · simp at hresult
  next hsize =>
  rw [if_neg hsize]
  split at hresult
  · simp at hresult
  next hroom =>
  rw [if_neg hroom]
  have hlags := nobody_lags hresult
  rw [recipientTurns, List.map_map] at hlags ⊢
  exact Pointwise.of_map fun c hc heligible hcontains =>
    marked_of_turn t env object _ _ c heligible hcontains
      (hlags _ (List.mem_map_of_mem hc))

theorem gotFrame_writeObjectFrame {c c' : Conn} (hstreams : c'.streams = c.streams)
    (hcontains : c'.sendSubscriptions.contains object.trackId = true) :
    c.gotFrame object (writeObjectFrame c' object) = true := by
  obtain ⟨entry, hentry⟩ := Option.isSome_iff_exists.mp hcontains
  unfold writeObjectFrame Conn.gotFrame
  rw [hentry, ← hstreams]
  simp [Conn.sendFrame]

/-- A write that nothing stops serves everybody. -/
theorem framed_of_write (t : Transport) (env : FlushEnv) (object : MoqObject)
    (conns : List Conn) (delivered : Nat)
    (hcomplete : (t.reliableWrite env object conns delivered).2 = none) :
    List.Forall₂ (fun c c' => t.recipientEligible c object.trackId = true →
        c' = writeObjectFrame c object)
      conns (t.reliableWrite env object conns delivered).1 := by
  induction conns generalizing delivered with
  | nil => exact .nil
  | cons c rest ih =>
      simp only [reliableWrite] at hcomplete ⊢
      split at hcomplete
      · next hskip =>
          rw [if_pos hskip]
          exact .cons (fun heligible => by simp [heligible] at hskip) (ih _ hcomplete)
      next hfor =>
      rw [if_neg hfor]
      split at hcomplete
      · cases hcomplete
      · cases hcomplete
      · exact .cons (fun _ => rfl) (ih _ hcomplete)

theorem framed_publishReliable {t : Transport}
    (hresult : (t.publishReliable env object).2 = .delivered ∨
      (t.publishReliable env object).2 = .noRecipients) :
    List.Forall₂ (fun c c' => t.recipientEligible c object.trackId = true →
        c.sendSubscriptions.contains object.trackId = true → c.gotFrame object c' = true)
      t.conns (t.publishReliable env object).1.conns := by
  have hchecked := preflight_pointwise (R := fun c c' => c'.streams = c.streams ∧
      t.recipientEligible c' object.trackId = t.recipientEligible c object.trackId ∧
      c'.sendSubscriptions.contains object.trackId =
        c.sendSubscriptions.contains object.trackId) t env object (fun _ => ⟨rfl, rfl, rfl⟩)
    (fun c _ => by
      obtain ⟨table, next, hsame, honly⟩ := openTrackStream_only (env.conn c.id) c
        object.trackId
      rw [honly]
      simp only [recipientEligible, hsame.contains, and_self]) t.conns 0
  unfold publishReliable at hresult ⊢
  split at hresult
  · simp at hresult
  next hsize =>
  rw [if_neg hsize]
  rcases hpreflight : t.reliablePreflight env object t.conns 0 with ⟨conns, failure, eligible⟩
  rw [hpreflight] at hchecked
  simp only [hpreflight] at hresult ⊢
  cases failure with
  | some failure =>
      rcases reliablePreflight_failure t env object t.conns 0
        (congrArg (·.2.1) hpreflight) with rfl | rfl | rfl <;> simp at hresult
  | none =>
  have hwritten := framed_of_write t env object conns 0
  rcases hwrite : t.reliableWrite env object conns 0 with ⟨written, stopped⟩
  rw [hwrite] at hwritten
  simp only [hwrite] at hresult ⊢
  cases stopped with
  | some failure =>
      rcases reliableWrite_failure t env object conns 0 (congrArg Prod.snd hwrite) with
        rfl | rfl <;> simp at hresult
  | none =>
      exact Pointwise.comp (fun c c1 c' hopened hframed heligible hcontains => by
        rw [hframed (hopened.2.1.trans heligible)]
        exact gotFrame_writeObjectFrame hopened.1 (hopened.2.2.trans hcontains))
        hchecked (hwritten rfl)

/-- The connection has the group: its frame was written just now, or the connection
carries the mark of a whole symbol set. -/
def HasGroup (object : MoqObject) (c c' : Conn) : Prop :=
  if (trackProfile object.trackId).reliable then c.gotFrame object c' = true
  else c'.fecGroupDelivered = true

theorem hasGroup_publishUngrouped {t : Transport}
    (hresult : (t.publishUngrouped env object true).2 = .delivered ∨
      (t.publishUngrouped env object true).2 = .noRecipients) :
    List.Forall₂ (fun c c' => t.recipientEligible c object.trackId = true →
        c.sendSubscriptions.contains object.trackId = true → HasGroup object c c')
      t.conns (t.publishUngrouped env object true).1.conns := by
  unfold publishUngrouped at hresult ⊢
  split at hresult
  · simp at hresult
  next hvalid =>
  rw [if_neg hvalid]
  split at hresult
  · next hreliable =>
      rw [if_pos hreliable]
      exact (framed_publishReliable hresult).imp fun c c' hframed heligible hcontains => by
        rw [HasGroup, if_pos hreliable]
        exact hframed heligible hcontains
  · next hreliable =>
      rw [if_neg hreliable]
      exact (marked_publishDatagrams hresult).imp fun c c' hmarked heligible hcontains => by
        rw [HasGroup, if_neg hreliable]
        exact hmarked heligible hcontains

end Transport

end Qlinq
