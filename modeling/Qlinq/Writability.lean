import Qlinq.StreamCounts

namespace Qlinq

/-! When an application is told that a stream is writable. -/

/-- A property that a new stream has and that nothing done to a stream ends. -/
structure StreamLaw (holds : QlinqStream → Prop) : Prop where
  added : ∀ id profile direction,
    holds { id := id, profile := profile, direction := direction }
  closed : ∀ stream, holds stream → holds stream.close
  lost : ∀ stream, holds stream → holds stream.lose
  received : ∀ stream, holds stream → holds stream.receive
  sent : ∀ stream result, holds stream → holds (QlinqStream.send stream result)
  refreshed : ∀ stream index callocs writable events, holds stream →
    holds (QlinqStream.refresh stream index callocs writable events).1

namespace StreamLaw

variable {P : QlinqStream → Prop} {f : Facade} (law : StreamLaw P)

def Every (P : QlinqStream → Prop) (e : ServedEndpoint) : Prop := ∀ stream ∈ e.streams, P stream

def All (P : QlinqStream → Prop) (f : Facade) : Prop := ∀ index, Every P (f.served index)

theorem all_change (hall : All P f) (index : Nat) {update : ServedEndpoint → ServedEndpoint}
    (hupdate : Every P (update (f.served index))) : All P (f.change index update) := by
  intro other
  cases decEq other index with
  | isTrue heq =>
      subst heq
      rw [Facade.served_change_self]
      exact hupdate
  | isFalse hne =>
      rw [Facade.served_change_of_ne hne]
      exact hall other

theorem every_changeStream {e : ServedEndpoint} (hall : Every P e) (id : Nat)
    {change : QlinqStream → QlinqStream} (hchange : ∀ stream, P stream → P (change stream)) :
    Every P (e.changeStream id change) := by
  intro stream hstream
  obtain ⟨before, hbefore, rfl⟩ := List.mem_map.mp hstream
  split
  · exact hchange before (hall before hbefore)
  · exact hall before hbefore

include law

theorem every_queueRecord (f : Facade) (callocs : Callocs) (index : Nat) (conn : PeerConn)
    (track : TrackId) (info : RecordInfo) (s : EventList × ServedEndpoint) (data : Bytes)
    (queued : EventList × ServedEndpoint) (hall : Every P s.2)
    (hqueued : f.queueRecord callocs index conn track info s data = some queued) :
    Every P queued.2 := by
  unfold Facade.queueRecord at hqueued
  split at hqueued
  · cases hqueued
    exact hall
  next stream hfind =>
  split at hqueued
  · cases hqueued
    exact hall
  split at hqueued
  split at hqueued
  · cases hqueued
    have hcounted : Every P { s.2 with recordsReceived := s.2.recordsReceived + 1 } := hall
    exact every_changeStream hcounted stream.id law.received
  · cases hqueued

theorem all_queueObject (hall : All P f) (callocs report : Callocs) (index : Nat)
    (conn : PeerConn) (track : TrackId) (info : RecordInfo) (data : Bytes) :
    All P (f.queueObject callocs report index conn track info data) := by
  have hrecords : (fun s : EventList × ServedEndpoint => Every P s.2) (queueReceivedObject
      (f.queueRecord callocs index conn track info) (f.context.events, f.served index) track
      data).1 :=
    QlinqContext.queueReceivedObject_keeps
      (every_queueRecord law f callocs index conn track info) (hall index) track data
  unfold Facade.queueObject
  generalize queueReceivedObject (f.queueRecord callocs index conn track info)
    (f.context.events, f.served index) track data = looped at hrecords
  obtain ⟨⟨events, e⟩, outcome⟩ := looped
  have hchanged : All P (f.change index fun _ => e) := all_change hall index hrecords
  exact hchanged

theorem all_handle (hall : All P f) (index : Nat) (endpoint : QlinqEndpoint)
    (report : TransportReport) : All P (f.handle index endpoint report) := by
  obtain ⟨event, callocs, spare⟩ := report
  cases event with
  | object conn track info data =>
      exact all_queueObject law hall callocs spare index conn track info data
  | objectLost conn track info =>
      have hlost : All P (f.change index (·.loseObject track)) := by
        apply all_change hall
        unfold ServedEndpoint.loseObject
        split
        · exact hall index
        · exact every_changeStream (hall index) _ law.lost
      exact hlost
  | connected conn sendsAuth => exact hall
  | auth conn token responds subscribes => exact hall
  | authComplete conn success subscribes => exact hall
  | disconnected conn info reason => exact hall
  | subscribe conn track => exact hall
  | unsubscribe conn track => exact hall
  | keyframeRequest conn track => exact hall

theorem all_refreshStreams (index : Nat) (callocs : Callocs) (ready : Nat → Bool)
    {streams : List QlinqStream} (hall : ∀ stream ∈ streams, P stream) (events : EventList) :
    ∀ stream ∈ (refreshStreams index callocs ready streams events).1, P stream := by
  induction streams generalizing events with
  | nil => exact hall
  | cons stream rest ih =>
      obtain ⟨hhere, hrest⟩ := List.forall_mem_cons.mp hall
      simp only [refreshStreams]
      refine List.forall_mem_cons.mpr ⟨?_, ih hrest _⟩
      split
      · exact law.refreshed stream index callocs (ready stream.id) events hhere
      · exact hhere

theorem steps_all : Facade.Steps (All P) where
  status := fun _ _ hall => hall
  tick := fun _ index _ hall => all_change hall index (hall index)
  report := fun _ index endpoint report hall _ _ => all_handle law hall index endpoint report
  refresh := by
    intro f index callocs ready hall hactive
    rw [Facade.refreshEndpoint, if_pos hactive]
    have hseen : All P (f.change index fun e =>
        { e with streams := (refreshStreams index callocs (ready index) (f.served index).streams
            f.context.events).1 }) :=
      all_change hall index
        (all_refreshStreams law index callocs (ready index) (hall index) f.context.events)
    exact hseen
  grow := fun _ _ hall => hall

theorem all_apply (hall : All P f) (op : Facade.Op) : All P (f.apply op) := by
  cases op with
  | openEndpoint listener sharedSecret => exact all_change hall f.opened (hall f.opened)
  | openStream index profile direction callocs allocates subscribes =>
      simp only [Facade.apply, Facade.openStream]
      split
      · exact hall
      split
      · exact hall
      split
      · exact hall
      split
      · exact hall
      have hadded : All P (f.change index fun e => (e.addStream profile direction).submit) :=
        all_change hall index (List.forall_mem_cons.mpr ⟨law.added _ _ _, hall index⟩)
      cases direction with
      | publish => exact hadded
      | subscribe =>
          simp only
          split
          · exact hadded
          · exact hadded
  | closeStream index id =>
      simp only [Facade.apply, Facade.closeStream]
      split
      · exact hall
      split
      · exact hall
      have hclosed : All P (f.change index fun e => (e.changeStream id (·.close)).submit) :=
        all_change hall index (every_changeStream (hall index) id law.closed)
      split
      · exact hclosed
      · exact hclosed
  | closeEndpoint index =>
      simp only [Facade.apply, Facade.closeEndpoint]
      have hclosed : All P (f.change index (·.closeStreams)) := by
        apply all_change hall
        intro stream hstream
        obtain ⟨before, hbefore, rfl⟩ := List.mem_map.mp hstream
        exact law.closed before (hall index before hbefore)
      split
      · exact hclosed
      · exact hall
  | submitWork index status =>
      simp only [Facade.apply, Facade.submitWork]
      split
      · exact all_change hall index (hall index)
      · exact hall
  | sendRecord index id answer =>
      simp only [Facade.apply, Facade.sendRecord]
      split
      · exact hall
      split
      · exact hall
      · have hsubmitted : Every P (f.served index).submit := hall index
        have hsent : Every P
            ((f.served index).submit.changeStream id (·.send (mapSendResult answer))) :=
          every_changeStream hsubmitted id fun stream => law.sent stream (mapSendResult answer)
        have hchanged : All P
            (f.change index fun e => e.submit.changeStream id (·.send (mapSendResult answer))) :=
          all_change hall index hsent
        exact hchanged
  | service env => exact (steps_all law).service hall env
  | nextEvent => exact hall
  | releaseEvent address => exact hall

theorem all_run (limits : EventLimits) (ops : List Facade.Op) : All P (Facade.run limits ops) :=
  Machine.invariant_run (fun _ op hall _ => all_apply law hall op)
    (fun _ _ hmem => absurd hmem List.not_mem_nil) (Machine.along_true _ ops)

end StreamLaw

namespace QlinqStream

/-- Whether the application was told that the stream is writable, and it has been since. -/
def told (stream : QlinqStream) : Bool := stream.writableKnown && stream.lastWritable

/-- A refresh looks at the stream once; it gives a report unless one stands. -/
theorem refresh_looks (stream : QlinqStream) (index : Nat) (callocs : Callocs) (writable : Bool)
    (events : EventList) :
    ∃ taken, (stream.refresh index callocs writable events).1.signals =
        stream.signals ++ [EdgeSignal.look stream.told writable taken] ∧
      (stream.refresh index callocs writable events).1.told =
        (writable && (stream.told || taken)) := by
  have hstands : (!stream.writableKnown || !stream.lastWritable) = !stream.told :=
    (Bool.not_and _ _).symm
  unfold refresh
  extract_lets becameWritable seen
  have hbecame : becameWritable = (writable && !stream.told) := congrArg (writable && ·) hstands
  split
  · next hnot =>
      rw [hbecame] at hnot
      cases writable with
      | false => exact ⟨false, rfl, rfl⟩
      | true =>
          have htold : stream.told = true := by simpa using hnot
          refine ⟨false, ?_, ?_⟩
          · rw [htold]
            rfl
          · rw [htold]
            rfl
  · next hbecomes =>
      rw [hbecame] at hbecomes
      obtain ⟨rfl, htold⟩ : writable = true ∧ stream.told = false := by simpa using hbecomes
      split
      next after taken _ =>
      refine ⟨taken, ?_, ?_⟩
      · rw [htold]
        cases taken with
        | false => rfl
        | true => rfl
      · rw [htold]
        cases taken with
        | false => rfl
        | true => rfl

/-- The flags of a stream say what stands after everything that was found of it. -/
def Signalled (stream : QlinqStream) : Prop :=
  EdgeSignal.Runs false stream.signals stream.told

theorem law_signalled : StreamLaw Signalled where
  added := fun _ _ _ => EdgeSignal.runs_nil.mpr rfl
  closed := fun _ hsignalled => hsignalled
  lost := fun _ hsignalled => hsignalled
  received := fun _ hsignalled => hsignalled
  sent := by
    intro stream result hsignalled
    unfold send
    extract_lets counted
    have hcounted : counted.Signalled := by
      unfold counted
      split
      · exact hsignalled
      · exact hsignalled
    split
    · exact hcounted.lower
    · exact hcounted
  refreshed := by
    intro stream index callocs writable events hsignalled
    obtain ⟨taken, hsignals, htold⟩ := stream.refresh_looks index callocs writable events
    rw [Signalled, hsignals, htold]
    exact hsignalled.look writable taken

/-- What a refresh makes of a stream: one look if it publishes, and nothing otherwise. -/
def Refreshed (ready : Nat → Bool) (before after : QlinqStream) : Prop :=
  if before.isPublishing then
    ∃ taken,
      after.signals = before.signals ++ [EdgeSignal.look before.told (ready before.id) taken] ∧
        after.told = (ready before.id && (before.told || taken))
  else
    after = before

theorem refreshed_refreshStreams (index : Nat) (callocs : Callocs) (ready : Nat → Bool)
    (streams : List QlinqStream) (events : EventList) :
    List.Forall₂ (Refreshed ready) streams
      (refreshStreams index callocs ready streams events).1 := by
  induction streams generalizing events with
  | nil => exact .nil
  | cons stream rest ih =>
      simp only [refreshStreams]
      refine .cons ?_ (ih _)
      unfold Refreshed
      split
      · exact stream.refresh_looks index callocs (ready stream.id) events
      · rfl

end QlinqStream

namespace Facade

variable {f : Facade} {index : Nat}

theorem served_refresh_of_ne {other : Nat} (hne : other ≠ index) (f : Facade)
    (callocs : Callocs) (ready : Nat → Nat → Bool) :
    (f.refreshEndpoint callocs ready index).served other = f.served other := by
  unfold refreshEndpoint
  split
  · exact Function.update_of_ne hne ..
  · rfl

/-- Each endpoint's streams are refreshed once. -/
theorem refreshed_foldl (callocs : Callocs) (ready : Nat → Nat → Bool) {items : List Nat}
    (hnodup : items.Nodup) (hmem : index ∈ items) (hactive : f.isActive index = true) :
    List.Forall₂ (QlinqStream.Refreshed (ready index)) (f.served index).streams
      ((items.foldl (fun f index => f.refreshEndpoint callocs ready index) f).served
        index).streams := by
  induction items generalizing f with
  | nil => cases hmem
  | cons item rest ih =>
      obtain ⟨hfresh, hrest⟩ := List.nodup_cons.mp hnodup
      rw [List.foldl_cons]
      cases hmem with
      | head =>
          have hlater : ∀ (items : List Nat) (g : Facade), index ∉ items →
              (items.foldl (fun f index => f.refreshEndpoint callocs ready index) g).served
                index = g.served index := by
            intro items
            induction items with
            | nil => exact fun _ _ => rfl
            | cons item rest ih =>
                intro g hnone
                rw [List.mem_cons, not_or] at hnone
                rw [List.foldl_cons, ih _ hnone.2,
                  served_refresh_of_ne hnone.1 g callocs ready]
          rw [hlater rest _ hfresh, refreshEndpoint, if_pos hactive]
          simp only [served_change_self]
          exact QlinqStream.refreshed_refreshStreams index callocs (ready index) _ _
      | tail _ hmem =>
          have hne : index ≠ item := fun heq => hfresh (heq ▸ hmem)
          have hsame := same_refreshEndpoint f callocs ready item
          rw [← served_refresh_of_ne hne f callocs ready]
          exact ih hrest hmem ((hsame.isActive_eq index).trans hactive)

/-- Between two reports that a stream is writable it was found not to be, by a send or by a
refresh; after such a finding no refresh takes it for reported before it is; and each refresh
looks once at every publishing stream, so that one that is ready is reported then, unless a
report stands or the events have no room for it. -/
theorem reports_follow_edges (limits : EventLimits) (ops : List Op) (index : Nat) :
    (∀ stream ∈ ((run limits ops).served index).streams,
      (∀ first between last,
        stream.signals = first ++ .reported :: (between ++ .reported :: last) →
          .lowered ∈ between) ∧
      (∀ first between last,
        stream.signals = first ++ .lowered :: (between ++ .steady :: last) →
          .reported ∈ between) ∧
      (stream.told = true →
        ∃ first rest, stream.signals = first ++ .reported :: rest ∧ .lowered ∉ rest)) ∧
      ∀ callocs ready, (run limits ops).isActive index = true →
        List.Forall₂ (QlinqStream.Refreshed (ready index)) ((run limits ops).served index).streams
          (((run limits ops).refreshWritableEvents callocs ready).served index).streams := by
  constructor
  · intro stream hstream
    have hsignalled : EdgeSignal.Runs false stream.signals stream.told :=
      StreamLaw.all_run QlinqStream.law_signalled limits ops index stream hstream
    refine ⟨fun first between last heq => ?_, fun first between last heq => ?_, fun htold => ?_⟩
    · exact (heq ▸ hsignalled).separated
    · exact (heq ▸ hsignalled).owed
    · exact (htold ▸ hsignalled).given
  · intro callocs ready hactive
    have hopened : index < (run limits ops).opened := by
      obtain ⟨endpoint, hendpoint, -⟩ := isActive_iff.mp hactive
      rw [← (sound_run limits ops).entered_iff, hendpoint]
      rfl
    exact refreshed_foldl callocs ready (List.nodup_reverse.mpr List.nodup_range)
      (List.mem_reverse.mpr (List.mem_range.mpr hopened)) hactive

end Facade

end Qlinq
