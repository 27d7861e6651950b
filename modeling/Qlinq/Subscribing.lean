import Qlinq.Deliveries

namespace Qlinq

/-! What the subscription calls of a receiver do to its bindings and its logs. -/

def Sent.checkpointAck (frame : Sent ControlFrame) : Option Watermark :=
  match frame.message with
  | .trackCheckpointAck ack => some ⟨ack.groupId, ack.finalObjectId⟩
  | _ => none

namespace Conn

/-- Checkpoint ACKs written under a subscription generation. -/
def acksIn (c : Conn) (generation : Nat) : List Watermark :=
  (c.control.filter (·.generation = generation)).filterMap Sent.checkpointAck

/-- Recovery windows accepted under a subscription generation. -/
def acceptedIn (c : Conn) (generation : Nat) : List RecoveryWindow :=
  (c.acceptedWindows.filter (·.generation = generation)).map (·.message.2)

/-- Every binding is an old one with its state, or the single fresh one; no object, no
window and no ACK is added. -/
structure Resubscribes (c c' : Conn) : Prop where
  nextGeneration :
    c.receiveSubscriptions.nextGeneration ≤ c'.receiveSubscriptions.nextGeneration
  bindings : ∃ fresh, ∀ a track, c'.receiveSubscriptions.findByAlias a = some track →
    (c.receiveSubscriptions.findByAlias a = some track ∧
        c'.receiveGeneration a = c.receiveGeneration a ∧
        c'.objectGap a = c.objectGap a) ∨
      (a = fresh ∧
        c.receiveSubscriptions.nextGeneration < c'.receiveSubscriptions.nextGeneration ∧
        c'.receiveGeneration a = c.receiveSubscriptions.nextGeneration + 1 ∧
        c'.objectGap a = {})
  completedObjects : c'.completedObjects = c.completedObjects
  events : c'.events = c.events
  acceptedWindows : c'.acceptedWindows = c.acceptedWindows
  acks : ∀ generation, c'.acksIn generation = c.acksIn generation

namespace Resubscribes

variable {c c' : Conn}

theorem of_untouched (htable : c'.receiveSubscriptions = c.receiveSubscriptions)
    (hring : c'.completedObjects = c.completedObjects) (hevents : c'.events = c.events)
    (haccepted : c'.acceptedWindows = c.acceptedWindows)
    (hacks : ∀ generation, c'.acksIn generation = c.acksIn generation) : Resubscribes c c' where
  nextGeneration := by rw [htable]
  bindings := by
    refine ⟨0, fun a track hbound => Or.inl ⟨htable ▸ hbound, ?_, ?_⟩⟩
    · simp only [receiveGeneration, htable]
    · simp only [objectGap, htable]
  completedObjects := hring
  events := hevents
  acceptedWindows := haccepted
  acks := hacks

theorem refl (c : Conn) : Resubscribes c c :=
  .of_untouched rfl rfl rfl rfl fun _ => rfl

/-- A step that leaves the table alone follows. -/
theorem then_untouched (hfirst : Resubscribes c c')
    (htable : c''.receiveSubscriptions = c'.receiveSubscriptions)
    (hring : c''.completedObjects = c'.completedObjects) (hevents : c''.events = c'.events)
    (haccepted : c''.acceptedWindows = c'.acceptedWindows)
    (hacks : ∀ generation, c''.acksIn generation = c'.acksIn generation) :
    Resubscribes c c'' where
  nextGeneration := by rw [htable]; exact hfirst.nextGeneration
  bindings := by
    obtain ⟨fresh, hbindings⟩ := hfirst.bindings
    refine ⟨fresh, fun a track hbound => ?_⟩
    have hgap : c''.objectGap a = c'.objectGap a := by simp only [objectGap, htable]
    have hgeneration : c''.receiveGeneration a = c'.receiveGeneration a := by
      simp only [receiveGeneration, htable]
    rw [htable] at hbound
    rw [hgap, hgeneration, htable]
    exact hbindings a track hbound
  completedObjects := hring.trans hfirst.completedObjects
  events := hevents.trans hfirst.events
  acceptedWindows := haccepted.trans hfirst.acceptedWindows
  acks generation := (hacks generation).trans (hfirst.acks generation)

/-- Dropping bindings leaves the others as they are. -/
theorem then_removes (hfirst : Resubscribes c c') (track : TrackId) :
    Resubscribes c { c' with
      receiveSubscriptions := c'.receiveSubscriptions.remove track } := by
  cases hfind : c'.receiveSubscriptions.find track with
  | none =>
      have hsame : c'.receiveSubscriptions.remove track = c'.receiveSubscriptions := by
        simp [SubscriptionTable.remove, hfind]
      rw [hsame]
      exact hfirst
  | some entry =>
      have hremoved : c'.receiveSubscriptions.remove track =
          c'.receiveSubscriptions.removeAlias entry.trackAlias := by
        simp [SubscriptionTable.remove, hfind]
      obtain ⟨fresh, hbindings⟩ := hfirst.bindings
      rw [hremoved]
      refine ⟨hfirst.nextGeneration, ⟨fresh, fun b other hbound => ?_⟩,
        hfirst.completedObjects, hfirst.events, hfirst.acceptedWindows, hfirst.acks⟩
      rw [SubscriptionTable.findByAlias_removeAlias] at hbound
      split at hbound
      · simp at hbound
      next hb =>
      have hstate : (c'.receiveSubscriptions.removeAlias entry.trackAlias).getState b =
          c'.receiveSubscriptions.getState b := by
        simp [SubscriptionTable.getState, SubscriptionTable.removeAlias, hb]
      simp only [receiveGeneration, objectGap, hstate]
      exact hbindings b other hbound

end Resubscribes

/-- Writing a control frame leaves everything but the stream alone. -/
theorem writeControlFrame_untouched (c : Conn) (frame : Sent ControlFrame) :
    (c.writeControlFrame frame).1.receiveSubscriptions = c.receiveSubscriptions ∧
      (c.writeControlFrame frame).1.completedObjects = c.completedObjects ∧
      (c.writeControlFrame frame).1.events = c.events ∧
      (c.writeControlFrame frame).1.acceptedWindows = c.acceptedWindows := by
  unfold writeControlFrame quiclyClose
  split
  · exact ⟨rfl, rfl, rfl, rfl⟩
  split
  · exact ⟨rfl, rfl, rfl, rfl⟩
  · split <;> exact ⟨rfl, rfl, rfl, rfl⟩

theorem acksIn_writeControlFrame (c : Conn) {frame : Sent ControlFrame}
    (hframe : frame.checkpointAck = none) (generation : Nat) :
    (c.writeControlFrame frame).1.acksIn generation = c.acksIn generation := by
  unfold writeControlFrame quiclyClose
  split
  · rfl
  split
  · simp only [acksIn, List.filter_append, List.filterMap_append]
    cases hsame : decide (frame.generation = generation) <;> simp [hsame, hframe]
  · split <;> rfl

theorem Resubscribes.then_writes {c c' : Conn} (hfirst : Resubscribes c c')
    {frame : Sent ControlFrame} (hframe : frame.checkpointAck = none) :
    Resubscribes c (c'.writeControlFrame frame).1 := by
  obtain ⟨htable, hring, hevents, haccepted⟩ := writeControlFrame_untouched c' frame
  exact hfirst.then_untouched htable hring hevents haccepted
    (acksIn_writeControlFrame c' hframe)

theorem resubscribes_add {c : Conn}
    (hadd : c.receiveSubscriptions.add track a = some table) :
    Resubscribes c { c with receiveSubscriptions := table } := by
  rcases SubscriptionTable.add_cases hadd with ⟨_, rfl⟩ |
    ⟨hfree, hbound, hnext, hstate, hothers⟩
  · exact .refl c
  refine ⟨by simp only [hnext]; omega, ⟨a, fun b other hother => ?_⟩, rfl, rfl, rfl,
    fun _ => rfl⟩
  by_cases hb : b = a
  · subst hb
    refine Or.inr ⟨rfl, by simp only [hnext]; omega, ?_, ?_⟩
    · simp [receiveGeneration, hstate]
    · simp [objectGap, hstate]
  · cases hothers b hb with
    | inl hkept =>
        obtain ⟨hfind, hkept⟩ := hkept
        refine Or.inl ⟨hfind.symm.trans hother, ?_, ?_⟩
        · simp only [receiveGeneration, hkept]
        · simp only [objectGap, hkept]
    | inr hmoved =>
        rw [hmoved.2] at hother
        simp at hother

theorem resubscribes_subscribeConnection (c : Conn) (track : TrackId) :
    Resubscribes c (c.subscribeConnection track).1 := by
  unfold subscribeConnection
  split
  · exact .refl c
  split
  · split
    · exact .refl c
    · exact (Resubscribes.refl c).then_writes rfl
  split
  · exact .refl c
  split
  · exact .refl c
  next a _ =>
  split
  · exact .refl c
  next table hadd =>
  extract_lets added
  have hadded : Resubscribes c added := resubscribes_add hadd
  have hframe : (added.receiveFrame a (ControlFrame.subscribe a track)).checkpointAck = none :=
    rfl
  have hwrite := hadded.then_writes hframe
  split
  · next hwritten =>
      rw [hwritten] at hwrite
      exact hwrite
  · next hfailed =>
      rw [hfailed] at hwrite
      exact hwrite.then_removes track

theorem resubscribes_unsubscribeConnection (c : Conn) (track : TrackId) :
    Resubscribes c (c.unsubscribeConnection track).1 := by
  unfold unsubscribeConnection
  split
  · exact .refl c
  split
  · exact .refl c
  next entry _ =>
  extract_lets a
  have hframe : (c.receiveFrame a (ControlFrame.unsubscribe a entry.trackId)).checkpointAck =
    none := rfl
  have hwrite := (Resubscribes.refl c).then_writes hframe
  split
  · next hfailed =>
      rw [hfailed] at hwrite
      exact hwrite
  · next written hwritten =>
      rw [hwritten] at hwrite
      have hreleased : Resubscribes c { written with
          assemblers := written.assemblers.map fun slot =>
            slot.filter fun assembler => assembler.trackAlias != a } :=
        hwrite.then_untouched rfl rfl rfl rfl fun _ => rfl
      exact hreleased.then_removes entry.trackId

end Conn

end Qlinq
