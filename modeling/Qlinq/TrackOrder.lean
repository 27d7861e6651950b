import Qlinq.TrackStream

namespace Qlinq

/-! The records of a reliable track stream that reach the event queue. -/

namespace EventQueue

/-- The queue behind a record handed to it. -/
def offer (q : EventQueue) (object : TrackObject) : EventQueue :=
  (q.queueEvent object.payload.length 0).getD (q.queueError "unable to queue received record")

/-- The answers `queue_record` gives to records handed over without a pause. -/
def answers (q : EventQueue) : List TrackObject → List (TrackObject × Bool)
  | [] => []
  | object :: rest => (object, q.hasRoom object.payload.length 0) :: answers (q.offer object) rest

/-- No record finds room behind one that found none. -/
def keepsOrder (q : EventQueue) (rejected : Bool) : List TrackObject → Bool
  | [] => true
  | object :: rest =>
      let fits := q.hasRoom object.payload.length 0
      !(rejected && fits) && keepsOrder (q.offer object) (rejected || !fits) rest

end EventQueue

/-- Once an answer is no, every later one is. -/
def InOrder (handed : List (TrackObject × Bool)) : Prop :=
  handed.Pairwise fun earlier later => earlier.2 = false → later.2 = false

def hasRejected (handed : List (TrackObject × Bool)) : Bool := handed.any (!·.2)

theorem hasRejected_append (first second : List (TrackObject × Bool)) :
    hasRejected (first ++ second) = (hasRejected first || hasRejected second) :=
  List.any_append

theorem inOrder_concat (handed : List (TrackObject × Bool)) (object : TrackObject)
    (answer : Bool) :
    InOrder (handed ++ [(object, answer)]) ↔
      InOrder handed ∧ (hasRejected handed = true → answer = false) := by
  simp only [InOrder, hasRejected, List.pairwise_append, List.pairwise_singleton, true_and,
    List.mem_singleton, forall_eq, List.any_eq_true, Bool.not_eq_true']
  apply and_congr_right
  intro _
  constructor
  · intro hlater ⟨earlier, hmem, hno⟩
    exact hlater earlier hmem hno
  · intro hlater earlier hmem hno
    exact hlater ⟨earlier, hmem, hno⟩

/-- The records answered yes come before the others. -/
theorem InOrder.queued_prefix (horder : InOrder handed) :
    (handed.filter (·.2)).map (·.1) <+: handed.map (·.1) := by
  induction handed with
  | nil => exact List.prefix_rfl
  | cons head rest ih =>
      obtain ⟨hhead, hrest⟩ := List.pairwise_cons.mp horder
      cases hanswer : head.2 with
      | true =>
          rw [List.filter_cons_of_pos hanswer, List.map_cons, List.map_cons]
          exact (List.prefix_cons_inj _).mpr (ih hrest)
      | false =>
          have hnone : (head :: rest).filter (·.2) = [] := by
            rw [List.filter_eq_nil_iff]
            intro later hlater
            cases List.mem_cons.mp hlater with
            | inl hsame => simp [hsame, hanswer]
            | inr hmem => simp [hhead later hmem hanswer]
          rw [hnone]
          exact List.nil_prefix

/-- The answers keep the order exactly when the queue does. -/
theorem inOrder_answers_iff (q : EventQueue) (handed : List (TrackObject × Bool))
    (objects : List TrackObject) :
    InOrder (handed ++ q.answers objects) ↔
      InOrder handed ∧ q.keepsOrder (hasRejected handed) objects = true := by
  induction objects generalizing q handed with
  | nil => simp [EventQueue.answers, EventQueue.keepsOrder]
  | cons object rest ih =>
      unfold EventQueue.answers EventQueue.keepsOrder
      rw [List.append_cons, ih, inOrder_concat, hasRejected_append]
      cases hasRejected handed <;> cases q.hasRoom object.payload.length 0 <;>
        simp [hasRejected]

namespace TrackStream

/-- The terms that no step of a track stream changes. -/
structure SameTerms (s s' : TrackStream) : Prop where
  id : s'.id = s.id
  streams : s'.streams = s.streams
  authenticated : s'.conn.authenticated = s.conn.authenticated
  negotiatedLimits : s'.conn.negotiatedLimits = s.conn.negotiatedLimits
  receiveSubscriptions : s'.conn.receiveSubscriptions = s.conn.receiveSubscriptions

theorem SameTerms.refl (s : TrackStream) : SameTerms s s :=
  ⟨rfl, rfl, rfl, rfl, rfl⟩

theorem SameTerms.trans (hfirst : SameTerms s s') (hsecond : SameTerms s' s'') :
    SameTerms s s'' :=
  ⟨hsecond.id.trans hfirst.id, hsecond.streams.trans hfirst.streams,
    hsecond.authenticated.trans hfirst.authenticated,
    hsecond.negotiatedLimits.trans hfirst.negotiatedLimits,
    hsecond.receiveSubscriptions.trans hfirst.receiveSubscriptions⟩

/-- The alias the stream is bound to. -/
def bound (s : TrackStream) : Option TrackAlias :=
  s.conn.boundAlias s.id

/-- The alias names a reliable track the application has an open stream for. -/
def listens (s : TrackStream) (a : TrackAlias) : Bool :=
  match s.conn.receiveSubscriptions.findByAlias a with
  | none => false
  | some track => (trackProfile track).reliable && s.findStream track

/-- The object gets to the event queue. -/
def accepts (s : TrackStream) (object : TrackObject) : Bool :=
  s.conn.authenticated &&
    object.payload.length ≤ s.conn.negotiatedLimits.maxReliableObjectSize &&
    s.listens object.trackAlias

/-- The objects that are whole in the received bytes, up to the first that is not
accepted. -/
def arriving (accepts : TrackObject → Bool) : Nat → Bytes → List TrackObject
  | 0, _ => []
  | fuel + 1, bytes =>
      match decodeFrame bytes wireMaxStreamPayload with
      | .error _ => []
      | .ok frame =>
          match decodeTrackObject frame.payload with
          | .error _ => []
          | .ok object =>
              if accepts object then
                object :: arriving accepts fuel (bytes.drop frame.consumed)
              else
                []

/-- Applications subscribe with the flags of one delivery. -/
def OwnTracks (s : TrackStream) : Prop :=
  ∀ a track, s.conn.receiveSubscriptions.findByAlias a = some track →
    ∃ delivery, track.flags = deliveryFlags delivery

theorem SameTerms.listens (hsame : SameTerms s s') : s'.listens = s.listens := by
  funext a
  simp only [TrackStream.listens, findStream, hsame.receiveSubscriptions, hsame.streams]

theorem SameTerms.accepts (hsame : SameTerms s s') : s'.accepts = s.accepts := by
  funext object
  simp only [TrackStream.accepts, hsame.listens, hsame.authenticated, hsame.negotiatedLimits]

theorem SameTerms.ownTracks (hsame : SameTerms s s') (hown : s.OwnTracks) : s'.OwnTracks := by
  unfold OwnTracks
  rw [hsame.receiveSubscriptions]
  exact hown

theorem sameTerms_close (s : TrackStream) (code : AppError) (reason : String) :
    SameTerms s (s.close code reason) := by
  unfold close Conn.quiclyClose
  split <;> exact ⟨rfl, rfl, rfl, rfl, rfl⟩

theorem boundAlias_quiclyClose (c : Conn) (code : AppError) (reason : String) (stream : Nat) :
    (c.quiclyClose code reason).boundAlias stream = c.boundAlias stream := by
  unfold Conn.quiclyClose
  split <;> rfl

theorem bound_close (s : TrackStream) (code : AppError) (reason : String) :
    (s.close code reason).bound = s.bound :=
  boundAlias_quiclyClose s.conn code reason s.id

/-! ### One object -/

theorem usesFec_of_reliable (hflags : track.flags = deliveryFlags delivery)
    (hreliable : (trackProfile track).reliable = true) : (trackProfile track).usesFec = false := by
  simp only [trackProfile, TrackProfile.usesFec, hflags] at hreliable ⊢
  cases delivery with
  | reliable => decide
  | fixedFec => exact absurd hreliable (by decide)
  | rateless => exact absurd hreliable (by decide)
  | datagram => exact absurd hreliable (by decide)

theorem sameTerms_rejectReceivedRecord (s : TrackStream) (track : TrackId) :
    SameTerms s (s.rejectReceivedRecord track) := by
  unfold rejectReceivedRecord
  simp only
  split
  · have hqueue : SameTerms s { s with queue := s.queue.queueError (rejectReason track) } :=
      ⟨rfl, rfl, rfl, rfl, rfl⟩
    exact hqueue.trans (sameTerms_close _ _ _)
  · exact ⟨rfl, rfl, rfl, rfl, rfl⟩

theorem bound_rejectReceivedRecord (s : TrackStream) (track : TrackId) :
    (s.rejectReceivedRecord track).bound = s.bound := by
  unfold rejectReceivedRecord
  simp only
  split
  · exact bound_close _ _ _
  · rfl

theorem ingress_rejectReceivedRecord (s : TrackStream) (track : TrackId) :
    (s.rejectReceivedRecord track).ingress = s.ingress := by
  unfold rejectReceivedRecord
  simp only
  split <;> rfl

theorem handed_rejectReceivedRecord (s : TrackStream) (track : TrackId) :
    (s.rejectReceivedRecord track).handed = s.handed := by
  unfold rejectReceivedRecord
  simp only
  split <;> rfl

theorem queue_rejectReceivedRecord (s : TrackStream) (track : TrackId) :
    (s.rejectReceivedRecord track).queue = s.queue.queueError (rejectReason track) := by
  unfold rejectReceivedRecord
  simp only
  split <;> rfl

theorem queueObject_silent {s : TrackStream} (hplain : (trackProfile track).usesFec = false)
    (hsilent : s.findStream track = false) (object : TrackObject) :
    s.queueObject track object = s := by
  unfold queueObject queueReceivedObject queueRecord
  simp [hplain, hsilent]

/-- What an object that is not grouped does to a stream the application has open. -/
structure Offers (s s' : TrackStream) (object : TrackObject) : Prop where
  terms : SameTerms s s'
  bound : s'.bound = s.bound
  ingress : s'.ingress = s.ingress
  handed : s'.handed = s.handed ++ [(object, s.queue.hasRoom object.payload.length 0)]
  queue : s'.queue = s.queue.offer object

theorem queueObject_offers {s : TrackStream} (hplain : (trackProfile track).usesFec = false)
    (hstream : s.findStream track = true) (object : TrackObject) :
    Offers s (s.queueObject track object) object := by
  have hreason : rejectReason track = "unable to queue received record" := by
    simp [rejectReason, hplain]
  cases hroom : s.queue.hasRoom object.payload.length 0 with
  | true =>
      have hqueued : s.queueObject track object =
          { s with
            queue := s.queue.offer object
            handed := s.handed ++ [(object, true)] } := by
        simp [queueObject, queueReceivedObject, queueRecord, hplain, hstream,
          EventQueue.queueEvent, EventQueue.offer, hroom]
      rw [hqueued]
      exact ⟨⟨rfl, rfl, rfl, rfl, rfl⟩, rfl, rfl, by rw [hroom], rfl⟩
  | false =>
      have hrejected : s.queueObject track object =
          { s with handed := s.handed ++ [(object, false)] }.rejectReceivedRecord track := by
        simp [queueObject, queueReceivedObject, queueRecord, hplain, hstream,
          EventQueue.queueEvent, hroom]
        rfl
      rw [hrejected]
      constructor
      · have hhanded : SameTerms s { s with handed := s.handed ++ [(object, false)] } :=
          ⟨rfl, rfl, rfl, rfl, rfl⟩
        exact hhanded.trans (sameTerms_rejectReceivedRecord _ _)
      · rw [bound_rejectReceivedRecord]
        rfl
      · rw [ingress_rejectReceivedRecord]
      · rw [handed_rejectReceivedRecord, hroom]
      · rw [queue_rejectReceivedRecord, hreason]
        simp [EventQueue.offer, EventQueue.queueEvent, hroom]

/-! ### One frame -/

theorem sameTerms_bindStream (s : TrackStream) (a : TrackAlias) :
    SameTerms s { s with conn := s.conn.bindStream s.id a } := by
  unfold Conn.bindStream
  split <;> exact ⟨rfl, rfl, rfl, rfl, rfl⟩

theorem boundAlias_bindStream {c : Conn} (hbound : ∀ b, c.boundAlias stream = some b → b = a)
    (b : TrackAlias) (hb : (c.bindStream stream a).boundAlias stream = some b) : b = a := by
  unfold Conn.bindStream at hb
  split at hb
  · next hnone =>
      have hfresh : c.boundStreams.find? (·.1 = stream) = none := by
        simpa [Conn.boundAlias] using hnone
      simp only [Conn.boundAlias, List.find?_append, hfresh, Option.none_or] at hb
      simpa using hb.symm
  · exact hbound b hb

/-- What a frame for the alias the stream is bound to does to the connection. -/
structure Frames (s : TrackStream) (object : TrackObject)
    (result : Conn × Conn.TrackFrameOutcome) : Prop where
  terms : SameTerms s { s with conn := result.1 }
  bound : ∀ b, result.1.boundAlias s.id = some b → b = object.trackAlias
  stop : result.2 = .stop → s.accepts object = false
  skipped : result.2 = .skipped → s.listens object.trackAlias = false
  emitted : ∀ track, result.2 = .emitted track →
    s.conn.receiveSubscriptions.findByAlias object.trackAlias = some track ∧
      (trackProfile track).reliable = true ∧ s.accepts object = s.findStream track

theorem parseTrackObject_frames {s : TrackStream} {object : Sent TrackObject}
    (hbound : ∀ b, s.bound = some b → b = object.message.trackAlias) :
    Frames s object.message (s.conn.parseTrackObject s.id object) := by
  unfold Conn.parseTrackObject
  split
  · next hauth =>
      have hdenied : s.conn.authenticated = false := by simpa using hauth
      constructor
      · exact sameTerms_close s _ _
      · rw [boundAlias_quiclyClose]
        exact hbound
      · simp [accepts, hdenied]
      · simp
      · simp
  next hauth =>
  split
  · next hlarge =>
      constructor
      · exact sameTerms_close s _ _
      · rw [boundAlias_quiclyClose]
        exact hbound
      · simp [accepts, hlarge]
      · simp
      · simp
  next hfits =>
  simp only
  split
  · next hchanged =>
      obtain ⟨b, hb⟩ := Option.isSome_iff_exists.mp hchanged.1
      exact absurd (by rw [hb, hbound b hb]) hchanged.2
  have hterms := sameTerms_bindStream s object.message.trackAlias
  have hbind := boundAlias_bindStream hbound
  have hsubscriptions := hterms.receiveSubscriptions
  simp only at hsubscriptions
  rw [hsubscriptions]
  have hauthenticated : s.conn.authenticated = true := by simpa using hauth
  have hsize : object.message.payload.length ≤
      s.conn.negotiatedLimits.maxReliableObjectSize := by omega
  split
  · next hnone =>
      constructor
      · exact hterms
      · exact hbind
      · simp
      · simp [listens, hnone]
      · simp
  next track hsome =>
  split
  · next hdatagram =>
      have hunreliable : (trackProfile track).reliable = false := by simpa using hdatagram
      constructor
      · exact hterms.trans (sameTerms_close _ _ _)
      · unfold Conn.protocolClose
        rw [boundAlias_quiclyClose]
        exact hbind
      · simp [accepts, listens, hsome, hunreliable]
      · simp
      · simp
  · next hdatagram =>
      have hreliable : (trackProfile track).reliable = true := by simpa using hdatagram
      constructor
      · exact ⟨hterms.id, hterms.streams, hterms.authenticated, hterms.negotiatedLimits,
          hterms.receiveSubscriptions⟩
      · exact hbind
      · simp
      · simp
      · intro other hother
        obtain rfl := Conn.TrackFrameOutcome.emitted.inj hother
        exact ⟨hsome, hreliable, by
          simp [accepts, listens, hauthenticated, hsize, hsome, hreliable]⟩

/-! ### The loop -/

/-- What is received and what is still to come are the frames of the pending
objects; the others were handed over. -/
structure InSync (objects pending : List TrackObject) (a : TrackAlias) (future : Bytes)
    (s : TrackStream) : Prop where
  stream : s.ingress ++ future = trackStreamBytes pending
  handed : ∃ taken, objects = taken ++ pending ∧
    s.handed.map (·.1) = if s.listens a then taken else []
  bound : ∀ b, s.bound = some b → b = a
  own : s.OwnTracks

/-- What the loop hands over it takes from the front of the bytes. -/
structure HandsOver (objects : List TrackObject) (a : TrackAlias) (future : Bytes) (fuel : Nat)
    (s s' : TrackStream) : Prop where
  terms : SameTerms s s'
  sync : ∃ pending, InSync objects pending a future s'
  handed : s'.handed = s.handed ++ s.queue.answers (arriving s.accepts fuel s.ingress)

theorem InSync.close (hsync : InSync objects pending a future s) (code : AppError)
    (reason : String) : InSync objects pending a future (s.close code reason) := by
  have hterms := sameTerms_close s code reason
  constructor
  · exact hsync.stream
  · rw [hterms.listens]
    exact hsync.handed
  · rw [bound_close]
    exact hsync.bound
  · exact hterms.ownTracks hsync.own

theorem arriving_nil_of_error (herror : decodeFrame bytes wireMaxStreamPayload = .error result)
    (accepts : TrackObject → Bool) (fuel : Nat) : arriving accepts fuel bytes = [] := by
  cases fuel with
  | zero => rfl
  | succ fuel => simp only [arriving, herror]

theorem arriving_frame (hobject : object.Encodable)
    (hdecode : decodeFrame bytes wireMaxStreamPayload =
      .ok { type := wireTrackObject, payload := encodeTrackObject object, consumed := consumed })
    (accepts : TrackObject → Bool) (fuel : Nat) :
    arriving accepts (fuel + 1) bytes =
      if accepts object then object :: arriving accepts fuel (bytes.drop consumed) else [] := by
  simp only [arriving, hdecode, decodeTrackObject_encode hobject]

theorem parse_frame (hobject : object.Encodable) (hingress : s.ingress ≠ [])
    (hdecode : decodeFrame s.ingress wireMaxStreamPayload =
      .ok { type := wireTrackObject, payload := encodeTrackObject object, consumed := consumed })
    (fuel : Nat) :
    parseTrackStreamMessages (fuel + 1) s =
      match s.conn.parseTrackObject s.id (s.conn.receiveFrame object.trackAlias object) with
      | (c, .stop) => { s with conn := c }
      | (c, .skipped) =>
          parseTrackStreamMessages fuel { s with ingress := s.ingress.drop consumed, conn := c }
      | (c, .emitted track) =>
          parseTrackStreamMessages fuel
            (({ s with ingress := s.ingress.drop consumed, conn := c } :
              TrackStream).queueObject track object) := by
  have hwhole : ¬ (wireTrackObject ≠ wireTrackObject ∨
      (encodeTrackObject object).length < trackObjectHeaderSize) := by
    rw [length_encodeTrackObject]
    simp
  rw [parseTrackStreamMessages, if_neg hingress]
  simp only [hdecode, hwhole, if_false, decodeTrackObject_encode hobject]
  cases hauthenticated : s.conn.authenticated with
  | true => rfl
  | false =>
      unfold Conn.parseTrackObject
      rw [hauthenticated]
      rfl

/-- Without a listener nothing that arrives is accepted. -/
theorem InSync.arriving_silent (hsync : InSync objects pending a future s)
    (hobjects : ∀ object ∈ objects, object.Encodable ∧ object.trackAlias = a)
    (hsilent : s.listens a = false) (fuel : Nat) : arriving s.accepts fuel s.ingress = [] := by
  cases fuel with
  | zero => rfl
  | succ fuel =>
      cases pending with
      | nil =>
          have hingress := (List.append_eq_nil_iff.mp hsync.stream).1
          rw [hingress]
          rfl
      | cons object rest =>
          obtain ⟨taken, htaken, _⟩ := hsync.handed
          obtain ⟨hencodable, rfl⟩ := hobjects object (by simp [htaken])
          cases decodeFrame_stream hencodable hsync.stream with
          | inl hshort => exact arriving_nil_of_error hshort _ _
          | inr hframe =>
              obtain ⟨behind, _, _, hdecode⟩ := hframe
              rw [arriving_frame hencodable hdecode]
              simp [accepts, hsilent]

/-- Past one frame, whose object was handed over if anyone listens. -/
theorem InSync.next (hsync : InSync objects (object :: rest) a future s)
    (hterms : SameTerms s s') (hstream : s'.ingress ++ future = trackStreamBytes rest)
    (hbound : ∀ b, s'.bound = some b → b = a)
    (hhanded : s'.handed.map (·.1) =
      s.handed.map (·.1) ++ if s.listens a then [object] else []) :
    InSync objects rest a future s' := by
  obtain ⟨taken, htaken, hbefore⟩ := hsync.handed
  refine ⟨hstream, ⟨taken ++ [object], by simp [htaken], ?_⟩, hbound,
    hterms.ownTracks hsync.own⟩
  rw [hhanded, hbefore, hterms.listens]
  cases s.listens a <;> simp

theorem handsOver_parse (hobjects : ∀ object ∈ objects, object.Encodable ∧ object.trackAlias = a)
    (hsync : InSync objects pending a future s) (fuel : Nat) :
    HandsOver objects a future fuel s (parseTrackStreamMessages fuel s) := by
  induction fuel generalizing s pending with
  | zero => exact ⟨.refl s, ⟨pending, hsync⟩, by simp [arriving, parseTrackStreamMessages,
      EventQueue.answers]⟩
  | succ fuel ih =>
      have hidle (herror : decodeFrame s.ingress wireMaxStreamPayload = .error .needMore) :
          HandsOver objects a future (fuel + 1) s s :=
        ⟨.refl s, ⟨pending, hsync⟩, by
          rw [arriving_nil_of_error herror, EventQueue.answers, List.append_nil]⟩
      by_cases hingress : s.ingress = []
      · rw [parseTrackStreamMessages, if_pos hingress]
        exact hidle (by rw [hingress]; rfl)
      cases pending with
      | nil => exact absurd (List.append_eq_nil_iff.mp hsync.stream).1 hingress
      | cons object rest =>
          obtain ⟨taken, htaken, _⟩ := hsync.handed
          obtain ⟨hencodable, rfl⟩ := hobjects object (by simp [htaken])
          cases decodeFrame_stream hencodable hsync.stream with
          | inl hshort =>
              rw [parseTrackStreamMessages, if_neg hingress]
              simp only [hshort]
              exact hidle hshort
          | inr hframe =>
              obtain ⟨behind, hbytes, hbehind, hdecode⟩ := hframe
              have hdrop : s.ingress.drop object.frame.length = behind := by
                rw [hbytes, List.drop_left]
              have harriving := arriving_frame hencodable hdecode s.accepts fuel
              have hframes : Frames s object (s.conn.parseTrackObject s.id
                  (s.conn.receiveFrame object.trackAlias object)) :=
                @parseTrackObject_frames s (s.conn.receiveFrame object.trackAlias object)
                  hsync.bound
              rw [hdrop] at harriving
              rw [parse_frame hencodable hingress hdecode, hdrop]
              generalize s.conn.parseTrackObject s.id
                (s.conn.receiveFrame object.trackAlias object) = result at hframes ⊢
              obtain ⟨c, outcome⟩ := result
              have hterms := hframes.terms
              have hshifted : SameTerms s { s with ingress := behind, conn := c } :=
                ⟨hterms.id, hterms.streams, hterms.authenticated, hterms.negotiatedLimits,
                  hterms.receiveSubscriptions⟩
              -- an object nobody listens to is shifted out and leaves no answer
              have hsilently (hsilent : s.listens object.trackAlias = false) :
                  HandsOver objects object.trackAlias future (fuel + 1) s
                    (parseTrackStreamMessages fuel
                      { s with ingress := behind, conn := c }) := by
                have hnext := hsync.next hshifted hbehind hframes.bound (by simp [hsilent])
                have hrun := ih hnext
                have hquiet := hnext.arriving_silent hobjects (hshifted.listens ▸ hsilent) fuel
                refine ⟨hshifted.trans hrun.terms, hrun.sync, ?_⟩
                rw [hrun.handed, hquiet, hsync.arriving_silent hobjects hsilent]
              cases outcome with
              | stop =>
                  have hrefused := hframes.stop rfl
                  refine ⟨hterms, ⟨object :: rest, hsync.stream, ?_, hframes.bound,
                    hterms.ownTracks hsync.own⟩, ?_⟩
                  · rw [hterms.listens]
                    exact hsync.handed
                  · rw [harriving, hrefused]
                    simp [EventQueue.answers]
              | skipped => exact hsilently (hframes.skipped rfl)
              | emitted track =>
                  obtain ⟨htrack, hreliable, haccepts⟩ := hframes.emitted track rfl
                  obtain ⟨delivery, hflags⟩ := hsync.own _ _ htrack
                  have hplain := usesFec_of_reliable hflags hreliable
                  cases hstream : s.findStream track with
                  | false =>
                      have hkept := @queueObject_silent track
                        { s with ingress := behind, conn := c } hplain hstream object
                      simp only
                      rw [hkept]
                      exact hsilently (by simp [listens, htrack, hstream])
                  | true =>
                      have hlistens : s.listens object.trackAlias = true := by
                        simp [listens, htrack, hstream, hreliable]
                      have hoffers := @queueObject_offers track
                        { s with ingress := behind, conn := c } hplain hstream object
                      simp only
                      generalize ({ s with ingress := behind, conn := c } :
                        TrackStream).queueObject track object = offered at hoffers ⊢
                      have hoffered := hshifted.trans hoffers.terms
                      have hrun := ih (hsync.next hoffered
                        (by rw [hoffers.ingress]; exact hbehind)
                        (by rw [hoffers.bound]; exact hframes.bound)
                        (by rw [hoffers.handed]; simp [hlistens]))
                      refine ⟨hoffered.trans hrun.terms, hrun.sync, ?_⟩
                      rw [hrun.handed, hoffers.handed, hoffers.queue, hoffers.ingress,
                        hoffered.accepts, harriving, haccepts, hstream]
                      simp [EventQueue.answers]

theorem ingress_queueObject (s : TrackStream) (track : TrackId) (object : TrackObject) :
    (s.queueObject track object).ingress = s.ingress := by
  unfold queueObject
  simp only
  split
  · rfl
  · rfl
  · rfl
  · exact ingress_rejectReceivedRecord _ _

theorem consumed_pos (hdecode : decodeFrame bytes maxPayload = .ok frame) : 0 < frame.consumed := by
  unfold decodeFrame at hdecode
  split at hdecode
  · split at hdecode
    · simp at hdecode
    split at hdecode
    · simp at hdecode
    split at hdecode
    · simp at hdecode
    simp only at hdecode
    split at hdecode
    · simp at hdecode
    split at hdecode
    · simp at hdecode
    · obtain rfl := Except.ok.inj hdecode
      simp [wireFrameHeaderSize]
  · simp at hdecode

/-- A loop with as much fuel as bytes ends by itself. -/
theorem parse_succ_fuel (hfuel : s.ingress.length ≤ fuel) :
    parseTrackStreamMessages (fuel + 1) s = parseTrackStreamMessages fuel s := by
  induction fuel generalizing s with
  | zero =>
      have hempty : s.ingress = [] := List.length_eq_zero_iff.mp (by omega)
      simp [parseTrackStreamMessages, hempty]
  | succ fuel ih =>
      rw [parseTrackStreamMessages]
      conv => rhs; rw [parseTrackStreamMessages]
      split
      · rfl
      next hingress =>
      split
      · rfl
      · rfl
      next frame hdecode =>
      have hshorter : (s.ingress.drop frame.consumed).length ≤ fuel := by
        have hconsumed := consumed_pos hdecode
        have hlength := List.length_pos_of_ne_nil hingress
        rw [List.length_drop]
        omega
      split
      · rfl
      split
      · rfl
      split
      · rfl
      simp only
      split
      · rfl
      · exact ih hshorter
      · apply ih
        rw [ingress_queueObject]
        exact hshorter

/-! ### The run -/

/-- The records that become whole with a chunk are queued up to the first that
finds no room, and then none of them finds any. -/
def KeepsOrder (s : TrackStream) : Op → Prop
  | .receive data =>
      s.queue.keepsOrder (hasRejected s.handed)
        (arriving s.accepts (s.ingress ++ data).length (s.ingress ++ data)) = true
  | _ => True

/-- A stream on which nothing has arrived. -/
structure Fresh (s : TrackStream) : Prop where
  ingress : s.ingress = []
  handed : s.handed = []
  bound : s.bound = none
  own : s.OwnTracks

theorem Fresh.inSync (hfresh : s.Fresh) (objects : List TrackObject) (a : TrackAlias)
    (hfuture : trackStreamBytes objects = future) :
    InSync objects objects a future s := by
  refine ⟨by rw [hfresh.ingress, hfuture]; rfl, ⟨[], rfl, ?_⟩, ?_, hfresh.own⟩
  · rw [hfresh.handed]
    simp
  · simp [hfresh.bound]

theorem inSync_apply (hobjects : ∀ object ∈ objects, object.Encodable ∧ object.trackAlias = a)
    (hsync : InSync objects pending a (op.data ++ future) s) :
    (∃ pending, InSync objects pending a future (s.apply op)) ∧
      (InOrder (s.apply op).handed ↔ InOrder s.handed ∧ s.KeepsOrder op) := by
  cases op with
  | receive data =>
      have hreceived : InSync objects pending a future { s with ingress := s.ingress ++ data } :=
        ⟨by rw [List.append_assoc]; exact hsync.stream, hsync.handed, hsync.bound, hsync.own⟩
      have hparsed := handsOver_parse hobjects hreceived (s.ingress ++ data).length
      refine ⟨hparsed.sync, ?_⟩
      unfold TrackStream.apply onReceive
      rw [hparsed.handed, inOrder_answers_iff]
      rfl
  | nextEvent =>
      exact ⟨⟨pending, hsync.stream, hsync.handed, hsync.bound, hsync.own⟩,
        by simp [TrackStream.apply, KeepsOrder]⟩
  | queueEvent payloadSize messageSize =>
      exact ⟨⟨pending, hsync.stream, hsync.handed, hsync.bound, hsync.own⟩,
        by simp [TrackStream.apply, KeepsOrder]⟩
  | close code reason =>
      exact ⟨⟨pending, hsync.close code reason⟩,
        by simp [TrackStream.apply, TrackStream.close, KeepsOrder]⟩

theorem inSync_run (hobjects : ∀ object ∈ objects, object.Encodable ∧ object.trackAlias = a)
    (hsync : InSync objects pending a (received ops ++ future) s) :
    (∃ pending, InSync objects pending a future (s.run ops)) ∧
      (InOrder (s.run ops).handed ↔ InOrder s.handed ∧ Machine.Along apply KeepsOrder s ops) := by
  induction ops generalizing s pending with
  | nil => exact ⟨⟨pending, hsync⟩, by simp [TrackStream.run, Machine.Along]⟩
  | cons op rest ih =>
      have hfirst : InSync objects pending a (op.data ++ (received rest ++ future)) s := by
        simpa [received] using hsync
      obtain ⟨⟨pending', hstep⟩, horder⟩ := inSync_apply hobjects hfirst
      obtain ⟨hlast, hrest⟩ := ih hstep
      refine ⟨hlast, ?_⟩
      calc InOrder (s.run (op :: rest)).handed
          ↔ InOrder (s.apply op).handed ∧
              Machine.Along TrackStream.apply KeepsOrder (s.apply op) rest := hrest
        _ ↔ InOrder s.handed ∧ Machine.Along TrackStream.apply KeepsOrder s (op :: rest) := by
            rw [horder, and_assoc]
            rfl

def notesTrack : TrackId where
  type := .text
  flags := flagReliable
  name := [110]

/-- A connection subscribed to the track. -/
def notesConn : Conn :=
  Conn.receiveAll defaultLimits (Conn.init 0 defaultLimits)
    (Conn.subscribing defaultLimits notesTrack)

/-- A stream of a subscriber whose queue holds `maxQueuedEventBytes`. -/
def freshStream (maxQueuedEventBytes : Nat) : TrackStream where
  id := 2
  conn := notesConn
  streams := [{ type := .text, delivery := .reliable, name := [110] }]
  queue := { maxQueuedEvents := 16, maxQueuedEventBytes, nodeSize := 200 }

def note (objectId size : Nat) : TrackObject where
  trackAlias := 8
  isKeyframe := false
  priority := 0
  groupId := 0
  objectId := objectId
  payload := List.replicate size 0

theorem fresh_freshStream (maxQueuedEventBytes : Nat) :
    (freshStream maxQueuedEventBytes).Fresh := by
  have hunbound : notesConn.boundAlias 2 = none := by decide +kernel
  have hentries : notesConn.receiveSubscriptions.entries =
      [{ trackId := notesTrack, trackAlias := 8 }] := by decide +kernel
  refine ⟨rfl, rfl, hunbound, ?_⟩
  intro a track hbound
  obtain ⟨entry, hmem, _, rfl⟩ := SubscriptionTable.findByAlias_eq_some_iff.mp hbound
  obtain rfl := List.mem_singleton.mp (hentries ▸ hmem)
  exact ⟨.reliable, rfl⟩

theorem encodable_note (hid : objectId < 2 ^ 64) (hsize : size ≤ maxReliableObjectSize) :
    (note objectId size).Encodable :=
  ⟨Nat.two_pow_pos 64, hid, by simpa [note] using hsize⟩

/-- Two records that arrive apart, the first taken before the second is whole. -/
def patientRun : List Op :=
  [.receive ((trackStreamBytes [note 0 200, note 1 200]).take 240), .nextEvent,
    .receive ((trackStreamBytes [note 0 200, note 1 200]).drop 240)]

end TrackStream

end Qlinq
