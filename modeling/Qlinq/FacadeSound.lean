import Qlinq.FacadeRuns

namespace Qlinq

/-! What holds of a context and its streams in every run. -/

namespace Facade

variable {f g h : Facade} {index : Nat} {endpoint : QlinqEndpoint}

@[simp] theorem context_change (f : Facade) (index : Nat)
    (update : ServedEndpoint → ServedEndpoint) :
    (f.change index update).context = f.context :=
  rfl

@[simp] theorem opened_change (f : Facade) (index : Nat)
    (update : ServedEndpoint → ServedEndpoint) :
    (f.change index update).opened = f.opened :=
  rfl

@[simp] theorem served_change_self (f : Facade) (index : Nat)
    (update : ServedEndpoint → ServedEndpoint) :
    (f.change index update).served index = update (f.served index) :=
  Function.update_self ..

theorem served_change_of_ne {other : Nat} (hne : other ≠ index) (f : Facade)
    (update : ServedEndpoint → ServedEndpoint) :
    (f.change index update).served other = f.served other :=
  Function.update_of_ne hne ..

/-- The endpoints and their streams are the same but for counts and peers. -/
structure Same (f g : Facade) : Prop where
  opened_eq : g.opened = f.opened
  keys_eq : ∀ index, (g.served index).keys = (f.served index).keys
  shape_eq : ∀ index, (g.context.endpoints index).map QlinqContext.shape =
    (f.context.endpoints index).map QlinqContext.shape

theorem same_self (f : Facade) : Same f f :=
  ⟨rfl, fun _ => rfl, fun _ => rfl⟩

theorem Same.trans (hfirst : Same f g) (hsecond : Same g h) : Same f h :=
  ⟨hsecond.opened_eq.trans hfirst.opened_eq,
    fun index => (hsecond.keys_eq index).trans (hfirst.keys_eq index),
    fun index => (hsecond.shape_eq index).trans (hfirst.shape_eq index)⟩

theorem same_setStatus (f : Facade) (status : QlinqStatus) : Same f (f.setStatus status) :=
  ⟨rfl, fun _ => rfl, fun _ => rfl⟩

theorem same_change (f : Facade) (index : Nat) {update : ServedEndpoint → ServedEndpoint}
    (hkeys : (update (f.served index)).keys = (f.served index).keys) :
    Same f (f.change index update) := by
  refine ⟨rfl, fun other => ?_, fun _ => rfl⟩
  cases decEq other index with
  | isTrue heq =>
      subst heq
      rw [served_change_self, hkeys]
  | isFalse hne => rw [served_change_of_ne hne]

theorem same_tells {context : QlinqContext} {about : QlinqEvent → Prop}
    (htells : QlinqContext.Tells about f.context context) :
    Same f { f with context := context } :=
  ⟨rfl, fun _ => rfl, htells.shape_eq⟩

/-- The endpoints are those that were opened, and each one's subscriptions are those of its
table; a closed endpoint has no open stream. -/
structure Sound (f : Facade) : Prop where
  context : f.context.Sound
  entered_iff : ∀ index, (f.context.endpoints index).isSome ↔ index < f.opened
  table : ∀ index, StreamKey.Table (f.served index).keys
  mirrors : ∀ index endpoint, f.context.endpoints index = some endpoint →
    endpoint.streams = StreamKey.subscribed (f.served index).keys
  closed : ∀ index endpoint, f.context.endpoints index = some endpoint →
    endpoint.active = false → ∀ key ∈ (f.served index).keys, key.active = false
  unopened : ∀ index, f.opened ≤ index → (f.served index).keys = []

theorem Same.sound (hsame : Same f g) (hsound : f.Sound) (hcontext : g.context.Sound) :
    g.Sound where
  context := hcontext
  entered_iff := by
    intro index
    rw [hsame.opened_eq, ← hsound.entered_iff, ← Option.isSome_map, hsame.shape_eq,
      Option.isSome_map]
  table := fun index => hsame.keys_eq index ▸ hsound.table index
  mirrors := by
    intro index endpoint hendpoint
    have hshape := hsame.shape_eq index
    rw [hendpoint] at hshape
    obtain ⟨before, hbefore, heq⟩ := Option.map_eq_some_iff.mp hshape.symm
    rw [hsame.keys_eq, ← hsound.mirrors index before hbefore]
    exact (congrArg Prod.snd heq).symm
  closed := by
    intro index endpoint hendpoint hinactive
    have hshape := hsame.shape_eq index
    rw [hendpoint] at hshape
    obtain ⟨before, hbefore, heq⟩ := Option.map_eq_some_iff.mp hshape.symm
    rw [hsame.keys_eq]
    exact hsound.closed index before hbefore ((congrArg Prod.fst heq).trans hinactive)
  unopened := by
    intro index hindex
    rw [hsame.keys_eq]
    exact hsound.unopened index (hsame.opened_eq ▸ hindex)

theorem sound_create (limits : EventLimits) : (create limits).Sound where
  context := QlinqContext.sound_init limits
  entered_iff := fun index => by simp [create]
  table := fun _ => StreamKey.table_nil
  mirrors := fun _ _ hendpoint => by cases hendpoint
  closed := fun _ _ hendpoint => by cases hendpoint
  unopened := fun _ _ => rfl

theorem isActive_iff : f.isActive index = true ↔
    ∃ endpoint, f.context.endpoints index = some endpoint ∧ endpoint.active = true := by
  unfold isActive
  cases f.context.endpoints index with
  | none => simp
  | some endpoint => simp

theorem Same.isActive_eq (hsame : Same f g) (index : Nat) :
    g.isActive index = f.isActive index := by
  have hshape : ∀ c : Option QlinqEndpoint, c.any (·.active) =
      (c.map QlinqContext.shape).any (·.1) := fun c => by cases c <;> rfl
  rw [isActive, isActive, hshape, hshape, hsame.shape_eq]

/-! ### Steps of a service -/

theorem context_setStatus_sound (hsound : f.context.Sound) (status : QlinqStatus) :
    (f.setStatus status).context.Sound :=
  QlinqContext.sound_events hsound
    ((EventList.same_setStatus f.context.events status).sound hsound.events)

/-- A record is queued as the endpoint's subscriptions have it, whatever is counted. -/
theorem queueRecord_refines (f : Facade) (callocs : Callocs) (index : Nat) (conn : PeerConn)
    (track : TrackId) (info : RecordInfo) {keys : List StreamKey}
    (htable : StreamKey.Table keys) :
    ∀ (events : EventList) (s : EventList × ServedEndpoint) (data : Bytes),
      (s.1 = events ∧ s.2.keys = keys) →
      Option.Rel (fun events s => s.1 = events ∧ s.2.keys = keys)
        (f.context.queueRecord callocs index
          ((StreamKey.subscribed keys).any (·.isFor track)) conn track info events data)
        (f.queueRecord callocs index conn track info s data) := by
  rintro _ ⟨events, e⟩ data ⟨rfl, hkeys⟩
  have hfound := e.isSome_findStream track
  rw [hkeys] at hfound
  rw [← hfound, QlinqContext.queueRecord, Facade.queueRecord]
  cases hfind : e.findStream track .subscribe with
  | none => exact .some ⟨rfl, hkeys⟩
  | some stream =>
      obtain ⟨hmem, hactive, -⟩ := ServedEndpoint.findStream_mem hfind
      have hopened : stream.state = .opened :=
        (htable.opened_iff stream.key (hkeys ▸ List.mem_map_of_mem hmem)).mpr hactive
      simp only [Option.isSome_some, ↓reduceIte, hopened, reduceCtorEq]
      split
      · have hcounted := ServedEndpoint.keys_changeStream
          { e with recordsReceived := e.recordsReceived + 1 } stream.id
          fun stream => (rfl : stream.receive.key = stream.key)
        exact .some ⟨rfl, hcounted.trans hkeys⟩
      · exact .none

theorem queueObject_refines (hsound : f.Sound)
    (hendpoint : f.context.endpoints index = some endpoint) (callocs report : Callocs)
    (conn : PeerConn) (track : TrackId) (info : RecordInfo) (data : Bytes) :
    (f.queueObject callocs report index conn track info data).context =
        f.context.queueObject callocs report index (endpoint.findStream track) conn track info
          data ∧
      Same f (f.queueObject callocs report index conn track info data) := by
  have hrecords := queueReceivedObject_simulates
    (f.queueRecord_refines callocs index conn track info (hsound.table index))
    (s := f.context.events) (t := (f.context.events, f.served index)) ⟨rfl, rfl⟩ track data
  have hfind : endpoint.findStream track =
      (StreamKey.subscribed (f.served index).keys).any (·.isFor track) := by
    rw [QlinqEndpoint.findStream, hsound.mirrors index endpoint hendpoint]
  rw [← hfind] at hrecords
  unfold Facade.queueObject QlinqContext.queueObject
  generalize queueReceivedObject (f.context.queueRecord callocs index
    (endpoint.findStream track) conn track info) f.context.events track data = plain at hrecords
  generalize queueReceivedObject (f.queueRecord callocs index conn track info)
    (f.context.events, f.served index) track data = counted at hrecords
  obtain ⟨⟨hevents, hkeys⟩, houtcome⟩ := hrecords
  obtain ⟨events, outcome⟩ := plain
  obtain ⟨⟨events', e⟩, outcome'⟩ := counted
  obtain rfl : events' = events := hevents
  obtain rfl : outcome = outcome' := houtcome
  refine ⟨rfl, rfl, fun other => ?_, fun other => ?_⟩
  · cases decEq other index with
    | isTrue heq =>
        subst heq
        exact (congrArg ServedEndpoint.keys (Function.update_self ..)).trans hkeys
    | isFalse hne => exact congrArg ServedEndpoint.keys (Function.update_of_ne hne ..)
  · cases outcome with
    | complete => rfl
    | malformedPayload => rfl
    | malformedLength => rfl
    | unqueued =>
        exact (QlinqContext.tells_rejectReceivedRecord { f.context with events := events' } report
          index conn track).shape_eq other

/-- The streams' counts aside, an event is handled as the context has it. -/
theorem handle_refines (hsound : f.Sound)
    (hendpoint : f.context.endpoints index = some endpoint) (report : TransportReport) :
    (f.handle index endpoint report).context =
        f.context.handle report.callocs report.report index endpoint report.event ∧
      Same f (f.handle index endpoint report) := by
  obtain ⟨event, callocs, spare⟩ := report
  have htold (hobject : ∀ conn track info data, event ≠ .object conn track info data) :=
    QlinqContext.tells_handle f.context callocs spare index endpoint hobject
  cases event with
  | object conn track info data =>
      exact queueObject_refines hsound hendpoint callocs spare conn track info data
  | objectLost conn track info =>
      refine ⟨rfl, (same_change f index ?_).trans (same_tells (htold (by simp)))⟩
      unfold ServedEndpoint.loseObject
      split
      · rfl
      · exact ServedEndpoint.keys_changeStream _ _ fun _ => rfl
  | connected conn sendsAuth => exact ⟨rfl, same_tells (htold (by simp))⟩
  | auth conn token responds subscribes => exact ⟨rfl, same_tells (htold (by simp))⟩
  | authComplete conn success subscribes => exact ⟨rfl, same_tells (htold (by simp))⟩
  | disconnected conn info reason => exact ⟨rfl, same_tells (htold (by simp))⟩
  | subscribe conn track => exact ⟨rfl, same_tells (htold (by simp))⟩
  | unsubscribe conn track => exact ⟨rfl, same_tells (htold (by simp))⟩
  | keyframeRequest conn track => exact ⟨rfl, same_tells (htold (by simp))⟩

theorem sound_refreshStreams {events : EventList} (hsound : events.Sound) (index : Nat)
    (callocs : Callocs) (ready : Nat → Bool) (streams : List QlinqStream) :
    (refreshStreams index callocs ready streams events).2.Sound := by
  induction streams generalizing events with
  | nil => exact hsound
  | cons stream rest ih =>
      simp only [refreshStreams]
      apply ih
      split
      · unfold QlinqStream.refresh
        extract_lets becameWritable seen
        split
        · exact hsound
        have hqueued := EventList.sound_queueEvent hsound callocs
          { type := .streamWritable, endpoint := index, track := some stream.track }
        split
        next after accepted hevent =>
        rw [hevent] at hqueued
        split
        · exact hqueued
        · exact hqueued
      · exact hsound

theorem same_refreshEndpoint (f : Facade) (callocs : Callocs) (ready : Nat → Nat → Bool)
    (index : Nat) : Same f (f.refreshEndpoint callocs ready index) := by
  unfold refreshEndpoint
  split
  · have hsame : Same f (f.change index fun e =>
        { e with streams := (refreshStreams index callocs (ready index) (f.served index).streams
            f.context.events).1 }) :=
      same_change f index (keys_refreshStreams index callocs (ready index) _ _)
    exact ⟨rfl, hsame.keys_eq, fun _ => rfl⟩
  · exact same_self f

theorem steps_sound : Steps Sound where
  status := fun f status hsound =>
    (same_setStatus f status).sound hsound (context_setStatus_sound hsound.context status)
  tick := fun f index nowMs hsound => (same_change f index rfl).sound hsound hsound.context
  report := by
    intro f index endpoint report hsound hendpoint _
    obtain ⟨hcontext, hsame⟩ := handle_refines hsound hendpoint report
    refine hsame.sound hsound ?_
    rw [hcontext]
    exact QlinqContext.sound_handle hsound.context (by rw [hendpoint]; rfl) _ _ endpoint _
  refresh := by
    intro f index callocs ready hsound hactive
    refine (same_refreshEndpoint f callocs ready index).sound hsound ?_
    rw [refreshEndpoint, if_pos hactive]
    exact QlinqContext.sound_events hsound.context
      (sound_refreshStreams hsound.context.events index callocs (ready index) _)
  grow := fun f capacity hsound => Same.sound (f := f) ⟨rfl, fun _ => rfl, fun _ => rfl⟩ hsound
    hsound.context

/-! ### Calls of the application -/

/-- One endpoint's table changes, and its subscriptions with it. -/
theorem Sound.change {update : ServedEndpoint → ServedEndpoint} {context : QlinqContext}
    (active : Bool)
    (hsound : f.Sound) (hendpoint : f.context.endpoints index = some endpoint)
    (hcontext : context.Sound)
    (hothers : ∀ other, other ≠ index → (context.endpoints other).map QlinqContext.shape =
      (f.context.endpoints other).map QlinqContext.shape)
    (hhere : (context.endpoints index).map QlinqContext.shape =
      some (active, StreamKey.subscribed (update (f.served index)).keys))
    (htable : StreamKey.Table (update (f.served index)).keys)
    (hclosed : active = false → ∀ key ∈ (update (f.served index)).keys, key.active = false) :
    Sound { f.change index update with context := context } where
  context := hcontext
  entered_iff := by
    intro other
    cases decEq other index with
    | isTrue heq =>
        subst heq
        have hopened := (hsound.entered_iff other).mp (by rw [hendpoint]; rfl)
        rw [← Option.isSome_map (f := QlinqContext.shape)]
        simp only [hhere, Option.isSome_some, true_iff]
        exact hopened
    | isFalse hne =>
        rw [← Option.isSome_map (f := QlinqContext.shape)]
        simp only [hothers other hne, Option.isSome_map]
        exact hsound.entered_iff other
  table := by
    intro other
    cases decEq other index with
    | isTrue heq =>
        subst heq
        simpa only [served_change_self] using htable
    | isFalse hne =>
        simp only [served_change_of_ne hne]
        exact hsound.table other
  mirrors := by
    intro other found hfound
    cases decEq other index with
    | isTrue heq =>
        subst heq
        simp only at hfound
        rw [hfound] at hhere
        simp only [served_change_self]
        exact congrArg Prod.snd (Option.some.inj hhere)
    | isFalse hne =>
        simp only at hfound
        have hshape := hothers other hne
        rw [hfound] at hshape
        obtain ⟨before, hbefore, heq⟩ := Option.map_eq_some_iff.mp hshape.symm
        simp only [served_change_of_ne hne]
        exact (congrArg Prod.snd heq).symm.trans (hsound.mirrors other before hbefore)
  closed := by
    intro other found hfound hinactive
    cases decEq other index with
    | isTrue heq =>
        subst heq
        simp only at hfound
        rw [hfound] at hhere
        simp only [served_change_self]
        exact hclosed ((congrArg Prod.fst (Option.some.inj hhere)).symm.trans hinactive)
    | isFalse hne =>
        simp only at hfound
        have hshape := hothers other hne
        rw [hfound] at hshape
        obtain ⟨before, hbefore, heq⟩ := Option.map_eq_some_iff.mp hshape.symm
        simp only [served_change_of_ne hne]
        exact hsound.closed other before hbefore ((congrArg Prod.fst heq).trans hinactive)
  unopened := by
    intro other hother
    have hne : other ≠ index := by
      rintro rfl
      have hopened := (hsound.entered_iff other).mp (by rw [hendpoint]; rfl)
      exact absurd hother (Nat.not_le.mpr hopened)
    simp only [served_change_of_ne hne]
    exact hsound.unopened other hother

theorem sound_openEndpoint (hsound : f.Sound) (listener : Bool) (sharedSecret : Bytes) :
    (f.openEndpoint listener sharedSecret).Sound := by
  have hnone : f.context.endpoints f.opened = none := by
    rw [← Option.not_isSome_iff_eq_none, hsound.entered_iff]
    exact Nat.lt_irrefl _
  have hempty := hsound.unopened f.opened (Nat.le_refl _)
  have hcontext := QlinqContext.sound_apply hsound.context
    (.openEndpoint f.opened listener sharedSecret)
  have hendpoints : (f.context.apply (.openEndpoint f.opened listener sharedSecret)).endpoints =
      Function.update f.context.endpoints f.opened
        (some { listener := listener, sharedSecret := sharedSecret }) := by
    simp [QlinqContext.apply, hnone]
  have hentered : Sound
      { f with
        context := f.context.apply (.openEndpoint f.opened listener sharedSecret)
        opened := f.opened + 1 } :=
    { context := hcontext
      entered_iff := by
        intro other
        simp only [hendpoints]
        cases decEq other f.opened with
        | isTrue heq => simp [heq]
        | isFalse hne =>
            rw [Function.update_of_ne hne, hsound.entered_iff]
            omega
      table := hsound.table
      mirrors := by
        intro other found hfound
        simp only [hendpoints] at hfound
        cases decEq other f.opened with
        | isTrue heq =>
            subst heq
            rw [Function.update_self] at hfound
            obtain rfl := Option.some.inj hfound
            simp only [hempty]
            rfl
        | isFalse hne =>
            rw [Function.update_of_ne hne] at hfound
            exact hsound.mirrors other found hfound
      closed := by
        intro other found hfound hinactive
        simp only [hendpoints] at hfound
        cases decEq other f.opened with
        | isTrue heq =>
            subst heq
            rw [Function.update_self] at hfound
            obtain rfl := Option.some.inj hfound
            cases hinactive
        | isFalse hne =>
            rw [Function.update_of_ne hne] at hfound
            exact hsound.closed other found hfound hinactive
      unopened := fun other hother => hsound.unopened other (Nat.le_of_succ_le hother) }
  let entered : Facade :=
    { f with
      context := f.context.apply (.openEndpoint f.opened listener sharedSecret)
      opened := f.opened + 1 }
  have hsubmitted : Same entered (entered.change f.opened (·.submit)) :=
    same_change entered f.opened rfl
  exact (hsubmitted.trans (same_setStatus _ .ok)).sound hentered
    (context_setStatus_sound hcontext .ok)

/-- A subscription that the table does not hold is none of those that the peers are told of. -/
theorem unsubscribed_of_not_holds (hsound : f.Sound)
    (hendpoint : f.context.endpoints index = some endpoint)
    (hholds : (f.served index).holds profile .subscribe = false) :
    ∀ other ∈ endpoint.streams, ¬ (other.type = profile.type ∧ other.name = profile.name) := by
  rintro other hother ⟨htype, hname⟩
  rw [hsound.mirrors index endpoint hendpoint] at hother
  obtain ⟨key, hkey, rfl⟩ := List.mem_map.mp hother
  obtain ⟨hkey, hsubscribed⟩ := List.mem_filter.mp hkey
  simp only [StreamKey.isSubscribed, Bool.and_eq_true, beq_iff_eq] at hsubscribed
  exact ServedEndpoint.free_of_not_holds hholds key hkey hsubscribed.1
    ⟨hsubscribed.2, htype, hname⟩

theorem sound_openStream (hsound : f.Sound) (callocs : Callocs) (index : Nat)
    (profile : SubscribedStream) (direction : StreamDirection) (allocates : Bool)
    (subscribes : PeerState → Bool) :
    (f.openStream callocs index profile direction allocates subscribes).Sound := by
  unfold Facade.openStream
  split
  · exact hsound
  next endpoint hendpoint =>
  split
  · exact steps_sound.status f .invalid hsound
  next hvalid =>
  split
  · exact steps_sound.status f .state hsound
  next hholds =>
  split
  · exact steps_sound.status f .noMemory hsound
  extract_lets added
  have hfree := ServedEndpoint.free_of_not_holds (Bool.not_eq_true _ ▸ hholds)
  have hactive : endpoint.active = true := by
    simp only [Bool.or_eq_true, not_or] at hvalid
    simpa using hvalid.1.1
  have hmirrors := hsound.mirrors index endpoint hendpoint
  have htable := (hsound.table index).add hfree
  have hkeys : ((f.served index).addStream profile direction).submit.keys = _ :=
    (f.served index).keys_addStream profile direction
  cases direction with
  | publish =>
      refine Sound.change true hsound hendpoint
        (context_setStatus_sound hsound.context .ok) (fun _ _ => rfl) ?_ ?_ ?_
      · simp only [hkeys]
        change (f.context.endpoints index).map QlinqContext.shape = _
        rw [hendpoint]
        simp [QlinqContext.shape, hactive, hmirrors, StreamKey.subscribed,
          StreamKey.isSubscribed]
      · simpa only [hkeys] using htable
      · intro hfalse
        cases hfalse
  | subscribe =>
      have hnone := unsubscribed_of_not_holds hsound hendpoint (by simpa using hholds)
      have htells := QlinqContext.tells_openStream f.context callocs index endpoint profile
        subscribes hnone
      have hcontext := QlinqContext.sound_openStream hsound.context callocs index endpoint profile
        subscribes
      have htold : Sound { added with
          context := f.context.openStream callocs index endpoint profile subscribes } := by
        refine Sound.change true hsound hendpoint hcontext ?_
          ?_ ?_ ?_
        · intro other hne
          rw [htells.shape_eq]
          exact congrArg (Option.map _) (Function.update_of_ne hne ..)
        · rw [htells.shape_eq]
          simp only [hkeys, QlinqContext.updateEndpoint, Function.update_self, hendpoint]
          simp [QlinqContext.shape, hactive, hmirrors, StreamKey.subscribed,
            StreamKey.isSubscribed]
        · simpa only [hkeys] using htable
        · intro hfalse
          cases hfalse
      simp only
      split
      · exact htold
      · exact steps_sound.status _ .ok htold

theorem sound_closeStream (hsound : f.Sound) (index id : Nat) :
    (f.closeStream index id).Sound := by
  unfold Facade.closeStream
  split
  · exact hsound
  next stream hfind =>
  split
  · exact hsound
  next hactive =>
  extract_lets closed
  have hactive : stream.active = true := by simpa using hactive
  obtain rfl : stream.id = id := by simpa using List.find?_some hfind
  have hmem : stream.key ∈ (f.served index).keys :=
    List.mem_map_of_mem (List.mem_of_find?_eq_some hfind)
  have htable := hsound.table index
  have hsubscribed : StreamKey.subscribed ((f.served index).keys.map fun key =>
        if key.id = stream.id then key.close else key) =
      if stream.key.isSubscribed then
        (StreamKey.subscribed (f.served index).keys).erase stream.profile
      else
        StreamKey.subscribed (f.served index).keys :=
    htable.subscribed_close hmem hactive
  have hkeys : (((f.served index).changeStream stream.id (·.close)).submit).keys = _ :=
    (f.served index).keys_closeStream stream.id
  have hclosed := htable.close fun key => decide (key.id = stream.id)
  simp only [decide_eq_true_eq] at hclosed
  have hendpoint : ∃ endpoint, f.context.endpoints index = some endpoint ∧
      endpoint.active = true := by
    cases hendpoint : f.context.endpoints index with
    | none =>
        have hunopened := hsound.unopened index (by
          rw [← Nat.not_lt, ← hsound.entered_iff, hendpoint]
          simp)
        rw [hunopened] at hmem
        cases hmem
    | some endpoint =>
        refine ⟨endpoint, rfl, ?_⟩
        by_contra hinactive
        have hkey := hsound.closed index endpoint hendpoint (by simpa using hinactive) stream.key
          hmem
        rw [show stream.key.active = true from hactive] at hkey
        cases hkey
  obtain ⟨endpoint, hendpoint, hlive⟩ := hendpoint
  have hmirrors := hsound.mirrors index endpoint hendpoint
  cases hdirection : stream.direction with
  | publish =>
      change Sound { closed with context := f.context }
      refine Sound.change true hsound hendpoint hsound.context (fun _ _ => rfl) ?_ ?_ ?_
      · have hplain : stream.key.isSubscribed = false := by
          simp [StreamKey.isSubscribed, QlinqStream.key, hdirection]
        rw [hkeys, hsubscribed, hplain, hendpoint]
        simp [QlinqContext.shape, hlive, hmirrors]
      · rw [hkeys]
        exact hclosed
      · intro hfalse
        cases hfalse
  | subscribe =>
      have hkeyed : stream.key.isSubscribed = true := by
        simp [StreamKey.isSubscribed, QlinqStream.key, hdirection, hactive]
      have happly : f.context.apply (.closeStream index stream.profile) =
          f.context.updateEndpoint index fun endpoint =>
            { endpoint with streams := endpoint.streams.erase stream.profile } := by
        simp [QlinqContext.apply, QlinqContext.atEndpoint, hendpoint, hlive]
      refine Sound.change true hsound hendpoint
        (QlinqContext.sound_apply hsound.context _) ?_ ?_ ?_ ?_
      · intro other hne
        rw [show closed.context = f.context from rfl, happly]
        exact congrArg (Option.map _) (Function.update_of_ne hne ..)
      · rw [show closed.context = f.context from rfl, happly, hkeys, hsubscribed, hkeyed]
        simp only [QlinqContext.updateEndpoint, Function.update_self, hendpoint]
        simp [QlinqContext.shape, hlive, hmirrors]
      · rw [hkeys]
        exact hclosed
      · intro hfalse
        cases hfalse

theorem sound_closeEndpoint (hsound : f.Sound) (index : Nat) : (f.closeEndpoint index).Sound := by
  unfold Facade.closeEndpoint
  split
  next hactive =>
    obtain ⟨endpoint, hendpoint, hlive⟩ := isActive_iff.mp hactive
    have happly : f.context.apply (.closeEndpoint index) =
        f.context.updateEndpoint index (·.close) := by
      simp [QlinqContext.apply, QlinqContext.atEndpoint, hendpoint, hlive]
    have hkeys := (f.served index).keys_closeStreams
    have hnone : StreamKey.subscribed (f.served index).closeStreams.keys = [] := by
      rw [hkeys, StreamKey.subscribed, List.map_eq_nil_iff, List.filter_eq_nil_iff]
      intro key hkey
      obtain ⟨before, -, rfl⟩ := List.mem_map.mp hkey
      simp [StreamKey.close, StreamKey.isSubscribed]
    refine Sound.change false hsound hendpoint
      (QlinqContext.sound_apply hsound.context _) ?_ ?_ ?_ ?_
    · intro other hne
      rw [happly]
      exact congrArg (Option.map _) (Function.update_of_ne hne ..)
    · rw [happly, hnone]
      simp only [QlinqContext.updateEndpoint, Function.update_self, hendpoint]
      rfl
    · rw [hkeys]
      exact (hsound.table index).close fun _ => true
    · intro _ key hkey
      rw [hkeys] at hkey
      obtain ⟨before, -, rfl⟩ := List.mem_map.mp hkey
      rfl
  · exact hsound

theorem sound_sendRecord (hsound : f.Sound) (index id : Nat) (answer : PublishResult) :
    (f.sendRecord index id answer).1.Sound := by
  unfold Facade.sendRecord
  split
  · exact hsound
  split
  · exact hsound
  · have hkeys := (f.served index).submit.keys_changeStream id
      fun stream => stream.key_send (mapSendResult answer)
    have hsame : Same f
        (f.change index fun e => e.submit.changeStream id (·.send (mapSendResult answer))) :=
      same_change f index hkeys
    exact hsame.sound hsound hsound.context

theorem sound_apply (hsound : f.Sound) (op : Op) : (f.apply op).Sound := by
  cases op with
  | openEndpoint listener sharedSecret => exact sound_openEndpoint hsound listener sharedSecret
  | openStream index profile direction callocs allocates subscribes =>
      exact sound_openStream hsound callocs index profile direction allocates subscribes
  | closeStream index id => exact sound_closeStream hsound index id
  | closeEndpoint index => exact sound_closeEndpoint hsound index
  | submitWork index status =>
      simp only [apply, submitWork]
      split
      · exact steps_sound.status _ status ((same_change f index rfl).sound hsound hsound.context)
      · exact hsound
  | sendRecord index id answer => exact sound_sendRecord hsound index id answer
  | service env => exact steps_sound.service hsound env
  | nextEvent =>
      exact ⟨QlinqContext.sound_apply hsound.context .nextEvent, hsound.entered_iff,
        hsound.table, hsound.mirrors, hsound.closed, hsound.unopened⟩
  | releaseEvent address =>
      exact ⟨QlinqContext.sound_apply hsound.context (.releaseEvent address), hsound.entered_iff,
        hsound.table, hsound.mirrors, hsound.closed, hsound.unopened⟩

theorem sound_run (limits : EventLimits) (ops : List Op) : (run limits ops).Sound :=
  Machine.invariant_run (fun _ op hsound _ => sound_apply hsound op) (sound_create limits)
    (Machine.along_true _ ops)

/-- After every run no two open streams of an endpoint have the same direction, type and name;
the subscriptions that its peers are told of are its open subscribing streams; and an event of
its transport does to the context what the context alone would do. -/
theorem streams_agree (limits : EventLimits) (ops : List Op) (index : Nat) :
    ((run limits ops).served index).streams.Pairwise (fun first second =>
      first.active = true → second.active = true → first.direction = second.direction →
        first.profile.type = second.profile.type → first.profile.name ≠ second.profile.name) ∧
      (∀ endpoint, (run limits ops).context.endpoints index = some endpoint →
        endpoint.streams = (((run limits ops).served index).streams.filter fun stream =>
          stream.active && stream.direction == .subscribe).map (·.profile)) ∧
      (∀ endpoint report, (run limits ops).context.endpoints index = some endpoint →
        ((run limits ops).handle index endpoint report).context =
          (run limits ops).context.handle report.callocs report.report index endpoint
            report.event) ∧
      (run limits ops).context.Sound := by
  have hsound := sound_run limits ops
  refine ⟨?_, fun endpoint hendpoint => ?_, fun endpoint report hendpoint => ?_, hsound.context⟩
  · refine (List.pairwise_map.mp (hsound.table index).distinct).imp ?_
    intro first second hdistinct hfirst hsecond hdirection htype hname
    exact hdistinct hfirst hsecond ⟨hdirection, htype, hname⟩
  · rw [hsound.mirrors index endpoint hendpoint, StreamKey.subscribed, ServedEndpoint.keys,
      List.filter_map, List.map_map]
    rfl
  · exact (handle_refines hsound hendpoint report).1

end Facade

end Qlinq
