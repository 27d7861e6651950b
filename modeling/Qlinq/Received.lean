import Qlinq.Lib.Framing
import Qlinq.Publish

namespace Qlinq

/-! How the receiving applications split a group object into records. -/

inductive GroupedOutcome where
  | complete
  | malformedPayload
  | malformedLength
  | unqueued
  deriving DecidableEq, Repr

def u16At (high low : UInt8) : Nat := high.toNat * 256 + low.toNat

/-- The loop of `queue_received_object`; `queueRecord` is `queue_record` on the
event queue's state, `none` when it cannot retain the record. -/
def queueGroupedRecords (queueRecord : σ → Bytes → Option σ) (queue : σ) :
    Bytes → σ × GroupedOutcome
  | [] => (queue, .complete)
  | [_] => (queue, .malformedPayload)
  | high :: low :: rest =>
      let size := u16At high low
      if size = 0 ∨ rest.length < size then
        (queue, .malformedLength)
      else
        match queueRecord queue (rest.take size) with
        | none => (queue, .unqueued)
        | some queue => queueGroupedRecords queueRecord queue (rest.drop size)
  termination_by data => data.length
  decreasing_by
    simp only [List.length_cons, List.length_drop]
    omega

/-- `queue_received_object`, without the report of a refused record. -/
def queueReceivedObject (queueRecord : σ → Bytes → Option σ) (queue : σ)
    (track : TrackId) (data : Bytes) : σ × GroupedOutcome :=
  if track.type = .data ∧ (trackProfile track).usesFec then
    queueGroupedRecords queueRecord queue data
  else
    match queueRecord queue data with
    | none => (queue, .unqueued)
    | some queue => (queue, .complete)

/-- The records the daemon sends on for a group object. -/
def daemonRecords : Bytes → List Bytes
  | high :: low :: rest =>
      let size := u16At high low
      if rest.length < size then
        []
      else
        rest.take size :: daemonRecords (rest.drop size)
  | _ => []
  termination_by data => data.length
  decreasing_by
    simp only [List.length_cons, List.length_drop]
    omega

theorem u16At_u16be (hvalue : value ≤ maxFecRecordSize) :
    u16At (UInt8.ofNat (value / 256)) (UInt8.ofNat value) = value := by
  simp only [maxFecRecordSize] at hvalue
  simp only [u16At, UInt8.toNat_ofNat']
  omega

/-- The format the grouping buffer is written in. -/
def recordFraming : Framing UInt8 where
  width := 2
  limit := maxFecRecordSize + 1
  encode := u16be
  decode
    | high :: low :: _ => u16At high low
    | _ => 0
  length_encode _ := rfl
  decode_encode _ hvalue := u16At_u16be (by omega)

theorem frame_eq (record : Bytes) :
    recordFraming.frame record =
      UInt8.ofNat (record.length / 256) :: UInt8.ofNat record.length :: record :=
  rfl

theorem daemonRecords_frame (hrecord : record.length ≤ maxFecRecordSize) (rest : Bytes) :
    daemonRecords (recordFraming.frame record ++ rest) = record :: daemonRecords rest := by
  rw [frame_eq, List.cons_append, List.cons_append, daemonRecords]
  simp only [u16At_u16be hrecord, List.length_append]
  rw [if_neg (by omega), List.take_left, List.drop_left]

/-- The daemon finds every record, an empty one too. -/
theorem daemonRecords_frames
    (hrecords : ∀ record ∈ records, record.length ≤ maxFecRecordSize) :
    daemonRecords (recordFraming.frames records) = records := by
  induction records with
  | nil => simp [daemonRecords]
  | cons record rest ih =>
      rw [Framing.frames_cons, daemonRecords_frame (hrecords record List.mem_cons_self),
        ih fun other hother => hrecords other (List.mem_cons_of_mem _ hother)]

theorem queueGroupedRecords_frame (queueRecord : σ → Bytes → Option σ) (queue : σ)
    (hrecord : record.length ≤ maxFecRecordSize) (rest : Bytes) :
    queueGroupedRecords queueRecord queue (recordFraming.frame record ++ rest) =
      if record = [] then
        (queue, .malformedLength)
      else
        match queueRecord queue record with
        | none => (queue, .unqueued)
        | some queue => queueGroupedRecords queueRecord queue rest := by
  rw [frame_eq, List.cons_append, List.cons_append, queueGroupedRecords]
  simp only [u16At_u16be hrecord, List.length_append, List.length_eq_zero_iff]
  by_cases hempty : record = []
  · simp [hempty]
  · rw [if_neg (not_or.mpr ⟨hempty, by omega⟩), if_neg hempty, List.take_left,
      List.drop_left]

/-- Hand records to the queue until one is not retained. -/
def queueAll (queueRecord : σ → Bytes → Option σ) (queue : σ) :
    List Bytes → σ × GroupedOutcome
  | [] => (queue, .complete)
  | record :: rest =>
      match queueRecord queue record with
      | none => (queue, .unqueued)
      | some queue => queueAll queueRecord queue rest

/-- On records that are not empty, the loop hands over exactly the records. -/
theorem queueGroupedRecords_frames (queueRecord : σ → Bytes → Option σ) (queue : σ)
    (hrecords : ∀ record ∈ records, record.length ≤ maxFecRecordSize)
    (hnonempty : ∀ record ∈ records, record ≠ []) :
    queueGroupedRecords queueRecord queue (recordFraming.frames records) =
      queueAll queueRecord queue records := by
  induction records generalizing queue with
  | nil => simp [queueGroupedRecords, queueAll]
  | cons record rest ih =>
      rw [Framing.frames_cons, queueGroupedRecords_frame _ _
        (hrecords record List.mem_cons_self), if_neg (hnonempty record List.mem_cons_self)]
      simp only [queueAll]
      cases queueRecord queue record with
      | none => rfl
      | some queue =>
          exact ih queue (fun other hother => hrecords other (List.mem_cons_of_mem _ hother))
            fun other hother => hnonempty other (List.mem_cons_of_mem _ hother)

/-- An unbounded event queue. -/
def collect (queue : List Bytes) (record : Bytes) : Option (List Bytes) :=
  some (queue ++ [record])

theorem queueAll_collect (queue records : List Bytes) :
    queueAll collect queue records = (queue ++ records, .complete) := by
  induction records generalizing queue with
  | nil => simp [queueAll]
  | cons record rest ih => simp [queueAll, collect, ih]

/-- The loop gets through a group object exactly when none of its records is
empty. -/
theorem queueGroupedRecords_complete_iff
    (hrecords : ∀ record ∈ records, record.length ≤ maxFecRecordSize)
    (queue : List Bytes) :
    (queueGroupedRecords collect queue (recordFraming.frames records)).2 = .complete ↔
      ∀ record ∈ records, record ≠ [] := by
  induction records generalizing queue with
  | nil => simp [queueGroupedRecords]
  | cons record rest ih =>
      have htail := ih
        (fun other hother => hrecords other (List.mem_cons_of_mem _ hother))
        (queue ++ [record])
      rw [Framing.frames_cons, queueGroupedRecords_frame _ _
        (hrecords record List.mem_cons_self), List.forall_mem_cons]
      by_cases hempty : record = []
      · simp [hempty]
      · simpa [hempty, collect] using htail

end Qlinq
