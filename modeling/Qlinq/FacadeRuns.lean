import Qlinq.StreamTable

namespace Qlinq

/-! Runs of a context with its streams, taken apart into the steps that `qlinq_service` is made
of. -/

/-- The loop over an object's records keeps a relation that each record keeps. -/
theorem queueGroupedRecords_simulates {record : σ → Bytes → Option σ}
    {other : τ → Bytes → Option τ} {R : σ → τ → Prop}
    (hrecord : ∀ s t data, R s t → Option.Rel R (record s data) (other t data))
    (hstart : R s t) (data : Bytes) :
    R (queueGroupedRecords record s data).1 (queueGroupedRecords other t data).1 ∧
      (queueGroupedRecords record s data).2 = (queueGroupedRecords other t data).2 := by
  induction s, data using queueGroupedRecords.induct record generalizing t with
  | case1 s => simpa only [queueGroupedRecords, and_true] using hstart
  | case2 s => simpa only [queueGroupedRecords, and_true] using hstart
  | case3 s high low rest size =>
      rename_i hsize
      rw [queueGroupedRecords, queueGroupedRecords, if_pos hsize, if_pos hsize]
      exact ⟨hstart, rfl⟩
  | case4 s high low rest size hsize =>
      rename_i hrefused
      have hrel := hrecord s t (rest.take size) hstart
      rw [hrefused] at hrel
      rw [queueGroupedRecords, queueGroupedRecords, if_neg hsize, if_neg hsize, hrefused]
      generalize other t (rest.take size) = answer at hrel
      cases hrel with
      | none => exact ⟨hstart, rfl⟩
  | case5 s high low rest size hsize queued hqueued =>
      rename_i ih
      have hrel := hrecord s t (rest.take size) hstart
      rw [hqueued] at hrel
      rw [queueGroupedRecords, queueGroupedRecords, if_neg hsize, if_neg hsize, hqueued]
      generalize other t (rest.take size) = answer at hrel
      cases hrel with
      | some hnext => exact ih hnext

theorem queueReceivedObject_simulates {record : σ → Bytes → Option σ}
    {other : τ → Bytes → Option τ} {R : σ → τ → Prop}
    (hrecord : ∀ s t data, R s t → Option.Rel R (record s data) (other t data))
    (hstart : R s t) (track : TrackId) (data : Bytes) :
    R (queueReceivedObject record s track data).1 (queueReceivedObject other t track data).1 ∧
      (queueReceivedObject record s track data).2 =
        (queueReceivedObject other t track data).2 := by
  unfold queueReceivedObject
  split
  · exact queueGroupedRecords_simulates hrecord hstart data
  · have hrel := hrecord s t data hstart
    generalize record s data = answer at hrel
    generalize other t data = answer' at hrel
    cases hrel with
    | none => exact ⟨hstart, rfl⟩
    | some hnext => exact ⟨hnext, rfl⟩

namespace Facade

variable {f g : Facade} {index : Nat}

/-- A property that every step of a service keeps. -/
structure Steps (Inv : Facade → Prop) : Prop where
  status : ∀ f status, Inv f → Inv (f.setStatus status)
  tick : ∀ f index nowMs, Inv f → Inv (f.change index (·.startTick nowMs))
  report : ∀ f index endpoint report, Inv f → f.context.endpoints index = some endpoint →
    endpoint.active = true → Inv (f.handle index endpoint report)
  refresh : ∀ f index callocs ready, Inv f → f.isActive index = true →
    Inv (f.refreshEndpoint callocs ready index)
  grow : ∀ f capacity, Inv f → Inv { f with pollEndpointCapacity := capacity }

variable {Inv : Facade → Prop}

theorem foldl_keeps {items : List α} {visit : Facade → α → Facade}
    (hvisit : ∀ f item, Inv f → Inv (visit f item)) (hinv : Inv f) :
    Inv (items.foldl visit f) := by
  induction items generalizing f with
  | nil => exact hinv
  | cons item rest ih => exact ih (hvisit f item hinv)

namespace Steps

variable (hsteps : Steps Inv)

include hsteps

theorem onTransportEvent (hinv : Inv f) (index : Nat) (report : TransportReport) :
    Inv (f.onTransportEvent index report) := by
  unfold Facade.onTransportEvent
  split
  · exact hinv
  · next endpoint hendpoint =>
      split
      · next hactive => exact hsteps.report f index endpoint report hinv hendpoint hactive
      · exact hinv

theorem serviceEndpoint (hinv : Inv f) (index : Nat) (nowMs : Int)
    (reports : List TransportReport) : Inv (f.serviceEndpoint index nowMs reports) :=
  foldl_keeps (fun _ report hinv => hsteps.onTransportEvent hinv index report)
    (hsteps.tick f index nowMs hinv)

theorem sweepEndpoint (hinv : Inv f) (env : ServiceEnv) (index : Nat) :
    Inv (f.sweepEndpoint env index) := by
  unfold Facade.sweepEndpoint
  split
  · split
    · exact hsteps.serviceEndpoint hinv index _ _
    · exact hinv
  · exact hinv

theorem sweep (hinv : Inv f) (env : ServiceEnv) : Inv (f.sweep env) :=
  foldl_keeps (fun _ index hinv => hsteps.sweepEndpoint hinv env index) hinv

theorem refreshWritableEvents (hinv : Inv f) (callocs : Callocs) (ready : Nat → Nat → Bool) :
    Inv (f.refreshWritableEvents callocs ready) := by
  apply foldl_keeps _ hinv
  intro f index hinv
  cases hactive : f.isActive index with
  | false =>
      rw [refreshEndpoint, hactive]
      exact hinv
  | true => exact hsteps.refresh f index callocs ready hinv hactive

theorem growPolls (hinv : Inv f) (hgrown : f.growPolls allocates = some g) : Inv g := by
  unfold Facade.growPolls at hgrown
  split at hgrown
  · split at hgrown
    · cases hgrown
      exact hsteps.grow f _ hinv
    · cases hgrown
  · cases hgrown
    exact hinv

theorem resumeEndpoint (hinv : Inv f) (env : ServiceEnv) (polled : PollResult) (index : Nat) :
    Inv (f.resumeEndpoint env polled index) := by
  unfold Facade.resumeEndpoint
  split
  · exact hsteps.serviceEndpoint hinv index _ _
  · exact hinv

theorem resume (hinv : Inv f) (env : ServiceEnv) (polled : PollResult) :
    Inv (f.resume env polled) :=
  foldl_keeps (fun _ index hinv => hsteps.resumeEndpoint hinv env polled index) hinv

theorem awake (hinv : Inv f) (env : ServiceEnv) (polled : PollResult) :
    Inv (f.awake env polled).1 := by
  have hresumed := hsteps.refreshWritableEvents (hsteps.resume hinv env polled)
    env.laterCallocs env.laterReady
  unfold Facade.awake
  split
  · exact hsteps.status f .io hinv
  · exact hsteps.status f .again hinv
  · extract_lets resumed
    split
    · exact hresumed
    · exact hsteps.status resumed .ok hresumed

theorem service (hinv : Inv f) (env : ServiceEnv) : Inv (f.service env).1 := by
  have hswept := hsteps.refreshWritableEvents
    (hsteps.sweep (hsteps.status f .ok hinv) env) env.callocs env.ready
  unfold Facade.service
  split
  · exact hinv
  split
  · exact hinv
  extract_lets swept
  split
  · exact hswept
  split
  · exact hsteps.status swept .state hswept
  split
  · exact hsteps.status swept .noMemory hswept
  · next grown hgrown => exact hsteps.awake (hsteps.growPolls hswept hgrown) env _

end Steps

end Facade

end Qlinq
