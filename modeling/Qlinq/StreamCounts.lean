import Qlinq.StreamMeters

namespace Qlinq

/-! The counts that an application can ask for are those of the events it is handed. -/

open Totals

/-- The stream that a track belongs to. -/
def profileOf (track : TrackId) : SubscribedStream where
  type := track.type
  delivery := flagsDelivery track.flags
  name := track.name

theorem isFor_iff {profile : SubscribedStream} {track : TrackId} :
    profile.isFor track = true ↔ profile = profileOf track := by
  cases profile
  simp [SubscribedStream.isFor, profileOf, and_assoc]

def isRecordAt (index : Nat) (event : QlinqEvent) : Bool :=
  event.type == .record && event.endpoint == index

def isRecordOf (index : Nat) (profile : SubscribedStream) (event : QlinqEvent) : Bool :=
  isRecordAt index event && event.track.any (profile.isFor ·)

def isReportOf (index : Nat) (track : TrackId) (event : QlinqEvent) : Bool :=
  event.type == .streamWritable && event.endpoint == index && event.track == some track

theorem isRecordAt_plain {event : QlinqEvent} (hplain : QlinqContext.Plain event) :
    isRecordAt index event = false := by
  simp [isRecordAt, hplain.1]

theorem isRecordAt_elsewhere {event : QlinqEvent} (hne : event.endpoint ≠ index) :
    isRecordAt index event = false := by
  simp [isRecordAt, hne]

/-- What the endpoint counts itself. -/
def endpointRecords (index : Nat) : EndpointMeter where
  index := index
  measure e := e.recordsReceived
  counts := isRecordAt index
  fresh := rfl
  submitted := fun _ => rfl
  ticked := fun _ _ => rfl
  added := fun _ _ _ => rfl
  closed := fun _ _ => rfl
  closed_all := fun _ => rfl
  lost := fun _ _ => rfl
  sent := fun _ _ _ => rfl
  received := fun e _ event _ _ _ htype hendpoint _ => by
    change e.recordsReceived + 1 = _
    rw [isRecordAt, htype, hendpoint]
    simp
  refreshed := fun e callocs ready events => by
    rw [countP_refreshStreams fun _ => rfl]
  plain := fun _ hplain => isRecordAt_plain hplain
  elsewhere := fun _ hne => isRecordAt_elsewhere hne

namespace QlinqStream

theorem profile_send (stream : QlinqStream) (result : SendResult) :
    (stream.send result).profile = stream.profile :=
  congrArg StreamKey.profile (stream.key_send result)

theorem recordsReceived_send (stream : QlinqStream) (result : SendResult) :
    (stream.send result).recordsReceived = stream.recordsReceived := by
  unfold send
  extract_lets counted
  have hcounted : counted.recordsReceived = stream.recordsReceived := by
    unfold counted
    split
    · rfl
    · rfl
  split
  · exact hcounted
  · exact hcounted

/-- A send reports nothing. -/
theorem count_reported_send (stream : QlinqStream) (result : SendResult) :
    (stream.send result).signals.count .reported = stream.signals.count .reported := by
  unfold send
  extract_lets counted
  have hcounted : counted.signals = stream.signals := by
    unfold counted
    split
    · rfl
    · rfl
  split
  · simp [hcounted]
  · rw [hcounted]

end QlinqStream

/-- What all streams count, whichever a record is for. -/
def streamRecords (index : Nat) : StreamMeter where
  index := index
  weight stream := stream.recordsReceived
  counts := isRecordAt index
  added := fun _ _ _ => rfl
  closed := fun _ => rfl
  lost := fun _ => rfl
  sent := QlinqStream.recordsReceived_send
  received := fun stream event track htype hendpoint _ _ => by
    change stream.recordsReceived + 1 = _
    rw [isRecordAt, htype, hendpoint]
    simp
  refreshed := fun _ _ _ _ => by simp [isRecordAt]
  plain := fun _ hplain => isRecordAt_plain hplain
  elsewhere := fun _ hne => isRecordAt_elsewhere hne

/-- What the streams of one profile count. -/
def profileRecords (index : Nat) (profile : SubscribedStream) : StreamMeter where
  index := index
  weight stream := if stream.profile = profile then stream.recordsReceived else 0
  counts := isRecordOf index profile
  added := fun _ _ _ => by simp
  closed := fun _ => rfl
  lost := fun _ => rfl
  sent := fun stream result => by
    rw [stream.profile_send, stream.recordsReceived_send]
  received := fun stream event track htype hendpoint htrack hfor => by
    rw [isFor_iff] at hfor
    have hprofile : profile.isFor track = decide (stream.profile = profile) := by
      rw [Bool.eq_iff_iff, isFor_iff, decide_eq_true_iff, hfor, eq_comm]
    change (if stream.profile = profile then stream.recordsReceived + 1 else 0) = _
    rw [isRecordOf, isRecordAt, htype, hendpoint, htrack, Option.any_some, hprofile]
    split
    · next heq => simp [heq]
    · next hne => simp [hne]
  refreshed := fun _ _ _ _ => by simp [isRecordOf, isRecordAt]
  plain := fun _ hplain => by rw [isRecordOf, isRecordAt_plain hplain, Bool.false_and]
  elsewhere := fun _ hne => by rw [isRecordOf, isRecordAt_elsewhere hne, Bool.false_and]

/-- How often the streams of one track were reported writable. -/
def trackReports (index : Nat) (track : TrackId) : StreamMeter where
  index := index
  weight stream := if stream.track = track then stream.signals.count .reported else 0
  counts := isReportOf index track
  added := fun _ _ _ => by simp
  closed := fun _ => rfl
  lost := fun _ => rfl
  sent := fun stream result => by
    rw [QlinqStream.track, stream.profile_send, stream.count_reported_send]
    rfl
  received := fun stream event other htype _ _ _ => by
    rw [isReportOf, htype]
    exact (Nat.add_zero _).symm
  refreshed := fun stream known last signal => by
    have hreported : (stream.signals ++ [signal]).count .reported =
        stream.signals.count .reported + if signal = .reported then 1 else 0 := by
      cases signal <;> simp
    change (if stream.track = track then (stream.signals ++ [signal]).count .reported else 0) = _
    rw [hreported, isReportOf]
    split
    · next heq => simp [heq]
    · next hne =>
        have hother : (some stream.track == some track) = false := by simpa using hne
        simp [hother]
  plain := fun _ hplain => by simp [isReportOf, hplain.2]
  elsewhere := fun _ hne => by simp [isReportOf, hne]

namespace Facade

/-- An endpoint has counted the records that were queued for it, and its streams together as
many; those of each profile have the records of its tracks; and each report that a stream is
writable is one event. -/
theorem counts_are_of_events (limits : EventLimits) (ops : List Op) (index : Nat) :
    ((run limits ops).served index).recordsReceived =
        (run limits ops).context.events.accepted.countP (isRecordAt index) ∧
      total (·.recordsReceived) ((run limits ops).served index).streams =
        ((run limits ops).served index).recordsReceived ∧
      (∀ profile, total (fun stream => if stream.profile = profile then stream.recordsReceived
          else 0) ((run limits ops).served index).streams =
        (run limits ops).context.events.accepted.countP (isRecordOf index profile)) ∧
      ∀ track, total (fun stream => if stream.track = track then stream.signals.count .reported
          else 0) ((run limits ops).served index).streams =
        (run limits ops).context.events.accepted.countP (isReportOf index track) := by
  have hendpoint := (endpointRecords index).holds_run limits ops
  have hstreams := (streamRecords index).sum.holds_run limits ops
  exact ⟨hendpoint, hstreams.trans hendpoint.symm,
    fun profile => (profileRecords index profile).sum.holds_run limits ops,
    fun track => (trackReports index track).sum.holds_run limits ops⟩

end Facade

end Qlinq
