import Qlinq.GroupIds
import Qlinq.Records
import Qlinq.UdsFanOut

namespace Qlinq

/-! The sending side of the file bridge: it reads records from its input and keeps each until
the transport has answered for it. -/

/-- The answer of `read`: some bytes (none at the end of the input), or an error that passes, or
one that does not. -/
inductive ReadAnswer where
  | took (count : Nat)
  | interrupted
  | failed
  deriving DecidableEq, Repr

/-- `message` is the record that waits, `input` what the input has still to give. -/
structure AppSender where
  transport : Transport
  track : TrackId
  input : Bytes
  messageCapacity : Nat
  message : Bytes := []
  nextObjectId : Nat := 0
  sentRecords : Nat := 0
  countLimit : Nat := 0
  intervalMs : Nat := 0
  nextSendAt : Nat := 0
  subscriptions : Nat := 0
  requiredSubscriptions : Nat := 1
  inputEof : Bool := false
  trackFinished : Bool := false
  finishedAt : Nat := 0
  failed : Bool := false

namespace Transport

/-- What a transport does of its own: everything but the calls of its application. -/
def Op.isInternal : Op → Bool
  | .publish _ _ => false
  | .finish _ _ => false
  | _ => true

end Transport

namespace AppSender

def object (s : AppSender) : MoqObject where
  trackId := s.track
  groupId := 0
  objectId := s.nextObjectId
  data := s.message
  priority := 1

def publishPending (s : AppSender) (env : PublishEnv) (now : Nat) : AppSender :=
  if s.message = [] ∨ now < s.nextSendAt then
    s
  else
    match s.transport.publish env s.object with
    | (t, .backpressure) => { s with transport := t }
    | (t, .invalid) => { s with transport := t, failed := true }
    | (t, .error) => { s with transport := t, failed := true }
    | (t, .partialDelivery) => { s with transport := t, failed := true }
    | (t, _) =>
        { s with
          transport := t
          message := []
          nextObjectId := s.nextObjectId + 1
          sentRecords := s.sentRecords + 1
          nextSendAt := now + s.intervalMs }

def loadInput (s : AppSender) (ready : Bool) (answer : ReadAnswer) : AppSender :=
  if !ready ∨ s.inputEof ∨ s.message ≠ [] ∨ s.subscriptions < s.requiredSubscriptions then
    s
  else if s.countLimit ≠ 0 ∧ s.countLimit ≤ s.sentRecords then
    { s with inputEof := true }
  else
    match answer with
    | .took count =>
        let record := s.input.take (min count s.messageCapacity)
        if record = [] then
          { s with inputEof := true }
        else
          { s with message := record, input := s.input.drop (min count s.messageCapacity) }
    | .interrupted => s
    | .failed => { s with failed := true }

def finishTrack (s : AppSender) (env : FlushEnv) (now : Nat) : AppSender :=
  if !s.inputEof ∨ s.message ≠ [] ∨ s.trackFinished then
    s
  else if (trackProfile s.track).fecRateless then
    match s.transport.finishTrack env s.track with
    | (t, false) => { s with transport := t }
    | (t, true) => { s with transport := t, trackFinished := true, finishedAt := now }
  else
    { s with trackFinished := true, finishedAt := now }

/-- A step of the main loop, or of the transport under it; `subscribed` and `unsubscribed`
are its events. -/
inductive Op where
  | transport (op : { op : Transport.Op // op.isInternal = true })
  | subscribed (track : TrackId)
  | unsubscribed (track : TrackId)
  | publishPending (env : PublishEnv) (now : Nat)
  | loadInput (ready : Bool) (answer : ReadAnswer)
  | finishTrack (env : FlushEnv) (now : Nat)

def apply (s : AppSender) : Op → AppSender
  | .transport op => { s with transport := s.transport.apply op }
  | .subscribed track =>
      if track.key = s.track.key then { s with subscriptions := s.subscriptions + 1 } else s
  | .unsubscribed track =>
      if track.key = s.track.key then { s with subscriptions := s.subscriptions - 1 } else s
  | .publishPending env now => s.publishPending env now
  | .loadInput ready answer => s.loadInput ready answer
  | .finishTrack env now => s.finishTrack env now

def run (s : AppSender) (ops : List Op) : AppSender := Machine.run apply s ops

/-! ### What the transport sees -/

def transportOp (s : AppSender) : Op → Option Transport.Op
  | .transport op => some op
  | .publishPending env now =>
      if s.message = [] ∨ now < s.nextSendAt then none else some (.publish env s.object)
  | .finishTrack env _ =>
      if !s.inputEof ∨ s.message ≠ [] ∨ s.trackFinished ∨
          (trackProfile s.track).fecRateless = false then
        none
      else
        some (.finish env s.track)
  | _ => none

def transportOps (s : AppSender) : List Op → List Transport.Op
  | [] => []
  | op :: rest => (s.transportOp op).toList ++ (s.apply op).transportOps rest

/-- The record that the step hands over, with the answer for it. -/
def handedBy (s : AppSender) : Op → Option (Bytes × PublishResult)
  | .publishPending env now =>
      let result := (s.transport.publish env s.object).2
      if s.message = [] ∨ now < s.nextSendAt ∨ result.taken = false then
        none
      else
        some (s.message, result)
  | _ => none

/-- The records handed over along a run. -/
def handed (s : AppSender) : List Op → List (Bytes × PublishResult)
  | [] => []
  | op :: rest => (s.handedBy op).toList ++ (s.apply op).handed rest

variable {s : AppSender}

theorem transport_apply (s : AppSender) (op : Op) :
    (s.apply op).transport = s.transport.run (s.transportOp op).toList := by
  cases op with
  | transport op => rfl
  | subscribed track =>
      simp only [apply, transportOp]
      split <;> rfl
  | unsubscribed track =>
      simp only [apply, transportOp]
      split <;> rfl
  | publishPending env now =>
      simp only [apply, transportOp, publishPending]
      split
      · rfl
      · change _ = (s.transport.publish env s.object).1
        split
        all_goals
          next hpublish =>
          rw [hpublish]
  | loadInput ready answer =>
      simp only [apply, transportOp, loadInput]
      split
      · rfl
      split
      · rfl
      cases answer with
      | took count =>
          dsimp only
          split <;> rfl
      | interrupted => rfl
      | failed => rfl
  | finishTrack env now =>
      simp only [apply, transportOp, finishTrack]
      by_cases hidle : !s.inputEof ∨ s.message ≠ [] ∨ s.trackFinished
      · rw [if_pos hidle, if_pos (by tauto)]
        rfl
      · rw [if_neg hidle]
        cases hrateless : (trackProfile s.track).fecRateless with
        | false =>
            rw [if_neg (by simp), if_pos (by simp)]
            rfl
        | true =>
            rw [if_pos rfl, if_neg (by simpa using hidle)]
            change _ = (s.transport.finishTrack env s.track).1
            split
            all_goals
              next hfinish =>
              rw [hfinish]

theorem transport_run (s : AppSender) (ops : List Op) :
    (s.run ops).transport = s.transport.run (s.transportOps ops) := by
  induction ops generalizing s with
  | nil => rfl
  | cons op rest ih =>
      rw [transportOps, Transport.run, Machine.run_append]
      change _ = (s.transport.run (s.transportOp op).toList).run _
      rw [← transport_apply]
      exact ih (s.apply op)

/-! ### The input -/

/-- A step loads the next record, hands over the one that waits, or leaves both. -/
theorem input_apply (s : AppSender) (op : Op) :
    s.message ++ s.input =
        ((s.handedBy op).toList.map Prod.fst).flatten ++ (s.apply op).message ++
          (s.apply op).input ∧
      (s.apply op).sentRecords = s.sentRecords + (s.handedBy op).toList.length ∧
      (s.apply op).track = s.track := by
  cases op with
  | transport op => exact ⟨rfl, rfl, rfl⟩
  | subscribed track =>
      simp only [apply, handedBy]
      split <;> exact ⟨rfl, rfl, rfl⟩
  | unsubscribed track =>
      simp only [apply, handedBy]
      split <;> exact ⟨rfl, rfl, rfl⟩
  | publishPending env now =>
      simp only [apply, handedBy, publishPending]
      by_cases hwaits : s.message = [] ∨ now < s.nextSendAt
      · rw [if_pos hwaits, if_pos (by tauto)]
        exact ⟨rfl, rfl, rfl⟩
      · rw [if_neg hwaits]
        rcases hpublish : s.transport.publish env s.object with ⟨t, result⟩
        rw [not_or] at hwaits
        cases result <;> simp [PublishResult.taken, hwaits]
  | loadInput ready answer =>
      simp only [apply, handedBy, loadInput]
      split
      · exact ⟨rfl, rfl, rfl⟩
      next hready =>
      have hempty : s.message = [] := by
        by_contra hfull
        exact hready (.inr (.inr (.inl hfull)))
      split
      · exact ⟨rfl, rfl, rfl⟩
      cases answer with
      | took count =>
          dsimp only
          split
          · exact ⟨rfl, rfl, rfl⟩
          · exact ⟨by simp [hempty], rfl, rfl⟩
      | interrupted => exact ⟨rfl, rfl, rfl⟩
      | failed => exact ⟨rfl, rfl, rfl⟩
  | finishTrack env now =>
      simp only [apply, handedBy, finishTrack]
      split
      · exact ⟨rfl, rfl, rfl⟩
      split
      · split <;> exact ⟨rfl, rfl, rfl⟩
      · exact ⟨rfl, rfl, rfl⟩

/-- The input is the records handed over, in order, then the record that waits, then what was
not read. -/
theorem input_run (s : AppSender) (ops : List Op) :
    s.message ++ s.input = ((s.handed ops).map Prod.fst).flatten ++ (s.run ops).message ++
        (s.run ops).input ∧
      (s.run ops).sentRecords = s.sentRecords + (s.handed ops).length ∧
      (s.run ops).track = s.track := by
  induction ops generalizing s with
  | nil => exact ⟨by simp [handed, run], rfl, rfl⟩
  | cons op rest ih =>
      obtain ⟨hinput, hsent, htrack⟩ := input_apply s op
      obtain ⟨hinput', hsent', htrack'⟩ := ih (s.apply op)
      refine ⟨?_, ?_, htrack'.trans htrack⟩
      · rw [handed, List.map_append, List.flatten_append, hinput, List.append_assoc, hinput']
        simp only [List.append_assoc]
        rfl
      · rw [handed, List.length_append, ← Nat.add_assoc, ← hsent]
        exact hsent'

end AppSender

end Qlinq
