import Qlinq.FacadeRuns

namespace Qlinq

/-! A context hands out events only when it is asked for one. -/

namespace QlinqContext

theorem popped_openStream (c : QlinqContext) (callocs : Callocs) (index : Nat)
    (endpoint : QlinqEndpoint) (stream : SubscribedStream) (subscribes : PeerState → Bool) :
    (c.openStream callocs index endpoint stream subscribes).events.popped = c.events.popped := by
  unfold openStream
  split
  · rfl
  · have htold : ∀ (c : QlinqContext) (peer : PeerState), Tells Plain c
        (if peer.ready && !subscribes peer then c.postError callocs index .state
          "unable to activate stream subscription" else c) := by
      intro c peer
      split
      · exact tells_postError c callocs index _ _ plain_of_error
      · exact tells_self c
    exact (tells_foldl htold _).popped_eq

end QlinqContext

theorem popped_refreshStreams (index : Nat) (callocs : Callocs) (ready : Nat → Bool)
    (streams : List QlinqStream) (events : EventList) :
    (refreshStreams index callocs ready streams events).2.popped = events.popped := by
  induction streams generalizing events with
  | nil => rfl
  | cons stream rest ih =>
      rw [refreshStreams]
      simp only
      rw [ih]
      split
      · unfold QlinqStream.refresh
        extract_lets becameWritable seen
        split
        · rfl
        · have hpopped := events.popped_queueEvent callocs
            { type := .streamWritable, endpoint := index, track := some stream.track }
          simp only
          split
          · exact hpopped
          · exact hpopped
      · rfl

namespace Facade

theorem popped_queueObject (f : Facade) (callocs report : Callocs) (index : Nat)
    (conn : PeerConn) (track : TrackId) (info : RecordInfo) (data : Bytes) :
    (f.queueObject callocs report index conn track info data).context.events.popped =
      f.context.events.popped := by
  have hrecord : ∀ (s : EventList × ServedEndpoint) record queued,
      s.1.popped = f.context.events.popped →
      f.queueRecord callocs index conn track info s record = some queued →
      queued.1.popped = f.context.events.popped := by
    intro s record queued hbefore hqueued
    unfold queueRecord at hqueued
    split at hqueued
    · cases hqueued
      exact hbefore
    split at hqueued
    · cases hqueued
      exact hbefore
    · simp only at hqueued
      split at hqueued
      · cases hqueued
        exact (EventList.popped_queueEvent _ callocs _).trans hbefore
      · cases hqueued
  have hobject : (fun s : EventList × ServedEndpoint => s.1.popped = f.context.events.popped)
      (queueReceivedObject (f.queueRecord callocs index conn track info)
        (f.context.events, f.served index) track data).1 :=
    QlinqContext.queueReceivedObject_keeps hrecord rfl track data
  unfold queueObject
  generalize queueReceivedObject (f.queueRecord callocs index conn track info)
    (f.context.events, f.served index) track data = answer at hobject
  cases answer with
  | mk s outcome =>
      cases outcome with
      | complete => exact hobject
      | malformedPayload =>
          exact (QlinqContext.tells_postError _ report index _ _
            QlinqContext.plain_of_error).popped_eq.trans hobject
      | malformedLength =>
          exact (QlinqContext.tells_postError _ report index _ _
            QlinqContext.plain_of_error).popped_eq.trans hobject
      | unqueued =>
          exact (QlinqContext.tells_rejectReceivedRecord _ report index conn
            track).popped_eq.trans hobject

theorem steps_popped (popped : List QlinqEvent) :
    Steps fun f => f.context.events.popped = popped where
  status := fun _ _ hpopped => hpopped
  tick := fun _ _ _ hpopped => hpopped
  report := by
    intro f index endpoint report hpopped _ _
    have hplain := @QlinqContext.tells_handle f.context report.callocs report.report index
      endpoint report.event
    unfold handle
    extract_lets told
    split
    · exact (f.popped_queueObject _ _ index _ _ _ _).trans hpopped
    · next hevent =>
        refine (hplain ?_).popped_eq.trans hpopped
        intro conn track info data hobject
        rw [hobject] at hevent
        cases hevent
    · next hobject hlost => exact (hplain fun conn track info data heq =>
        hobject conn track info data heq).popped_eq.trans hpopped
  refresh := by
    intro f index callocs ready hpopped hactive
    unfold refreshEndpoint
    rw [if_pos hactive]
    exact (popped_refreshStreams index callocs (ready index) _ _).trans hpopped
  grow := fun _ _ hpopped => hpopped

theorem popped_apply (f : Facade) {op : Op} (hop : op ≠ .nextEvent) :
    (f.apply op).context.events.popped = f.context.events.popped := by
  cases op with
  | openEndpoint listener sharedSecret =>
      simp only [apply, openEndpoint, QlinqContext.apply]
      split <;> rfl
  | openStream index profile direction callocs allocates subscribes =>
      simp only [apply, openStream]
      split
      · rfl
      split
      · rfl
      split
      · rfl
      split
      · rfl
      cases direction with
      | publish => rfl
      | subscribe =>
          simp only
          split
          · exact QlinqContext.popped_openStream _ _ _ _ _ _
          · exact QlinqContext.popped_openStream _ _ _ _ _ _
  | closeStream index id =>
      simp only [apply, closeStream]
      split
      · rfl
      split
      · rfl
      split
      · rfl
      · simp only [QlinqContext.apply, QlinqContext.atEndpoint]
        split
        · rfl
        · split <;> rfl
  | closeEndpoint index =>
      simp only [apply, closeEndpoint]
      split
      · simp only [QlinqContext.apply, QlinqContext.atEndpoint]
        split
        · rfl
        · split <;> rfl
      · rfl
  | submitWork index status =>
      simp only [apply, submitWork]
      split <;> rfl
  | sendRecord index id answer =>
      simp only [apply, sendRecord]
      split
      · rfl
      · split <;> rfl
  | service env => exact (steps_popped _).service rfl env
  | nextEvent => exact absurd rfl hop
  | releaseEvent address =>
      simp only [apply, QlinqContext.apply, EventList.releaseEvent]
      split <;> rfl

end Facade

end Qlinq
