import Qlinq.Wire

namespace Qlinq

/-! Recovery state kept for one subscription, by the receiver (`ObjectGapState`)
and by the publisher (`CheckpointAckState`). -/

def recoveryWindowObjects : Nat := 32

def recoveryMaxWindows : Nat := 128

def recoveryHistoryObjects : Nat := recoveryWindowObjects * recoveryMaxWindows

structure RecoveryWindow where
  groupId : Nat
  firstObjectId : Nat
  finalObjectId : Nat
  missingMask : BitVec 32
  deriving DecidableEq, Repr

namespace RecoveryWindow

def complete (window : RecoveryWindow) : Bool := window.missingMask == 0

def covers (window : RecoveryWindow) (objectId : Nat) : Prop :=
  window.firstObjectId ≤ objectId ∧ objectId ≤ window.finalObjectId

instance (window : RecoveryWindow) (objectId : Nat) :
    Decidable (window.covers objectId) :=
  inferInstanceAs (Decidable (_ ∧ _))

end RecoveryWindow

/-- Words of the delivered-object history. -/
def deliveredWords : Nat := recoveryHistoryObjects / 64

/-- Receiver state.  An option stands for a value and its `initialized` flag;
`recoveryWindows` lists the active windows. -/
structure ObjectGapState where
  lastSeen : Option Nat := none
  pendingBase : Nat := 0
  pendingMask : BitVec 32 := 0
  groupId : Nat := 0
  largestDelivered : Option Nat := none
  deliveredMask : WordMask deliveredWords := WordMask.zero
  lastCheckpointObjectId : Option Nat := none
  recoveryWindows : List RecoveryWindow := []

namespace ObjectGapState

def objectWasDelivered (state : ObjectGapState) (objectId : Nat) : Bool :=
  match state.largestDelivered with
  | none => false
  | some largest =>
      if largest < objectId then
        false
      else if recoveryHistoryObjects ≤ largest - objectId then
        true
      else
        state.deliveredMask.test (largest - objectId)

def objectIsRecentlyDelivered (state : ObjectGapState) (objectId : Nat) : Bool :=
  match state.largestDelivered with
  | none => false
  | some largest =>
      if largest < objectId then
        false
      else
        decide (largest - objectId < recoveryHistoryObjects) &&
          state.deliveredMask.test (largest - objectId)

def markObjectDelivered (state : ObjectGapState) (objectId : Nat) :
    ObjectGapState :=
  match state.largestDelivered with
  | none =>
      { state with
        largestDelivered := some objectId
        deliveredMask := fun word => if word.val = 0 then 1 else state.deliveredMask word }
  | some largest =>
      if largest < objectId then
        let distance := objectId - largest
        let shifted :=
          if distance < recoveryHistoryObjects then
            state.deliveredMask.shiftUp distance
          else
            WordMask.zero
        { state with
          deliveredMask := shifted.set 0
          largestDelivered := some objectId }
      else if largest - objectId < recoveryHistoryObjects then
        { state with deliveredMask := state.deliveredMask.set (largest - objectId) }
      else
        state

end ObjectGapState

structure Watermark where
  groupId : Nat
  objectId : Nat
  deriving DecidableEq, Repr

structure CheckpointAckState where
  participating : Bool := false
  sent : Option Watermark := none
  acked : Option Watermark := none
  deriving DecidableEq, Repr

namespace CheckpointAckState

def checkpointAckPending (state : CheckpointAckState) : Bool :=
  match state.sent with
  | none => false
  | some sent =>
      match state.acked with
      | none => true
      | some acked => acked.groupId != sent.groupId || acked.objectId < sent.objectId

def checkpointMarkSent (state : CheckpointAckState) (groupId objectId : Nat) :
    CheckpointAckState :=
  { state with sent := some ⟨groupId, objectId⟩ }

end CheckpointAckState

structure SubscriptionState where
  generation : Nat
  objectGap : ObjectGapState := {}
  checkpointAck : CheckpointAckState := {}

namespace ObjectGapState

/-! The bitmap answers for the objects marked so far: `Delivered` relates a
state to the set of marked ids. -/

/-- Every bit of the history belongs to a marked object and no marked object is
newer than `largestDelivered`. -/
structure Represents (state : ObjectGapState) (marked : Nat → Prop) : Prop where
  initialized : ∀ id, marked id → ∃ largest, state.largestDelivered = some largest ∧
    id ≤ largest
  largest_marked : ∀ largest, state.largestDelivered = some largest → marked largest
  test_iff : ∀ largest, state.largestDelivered = some largest →
    ∀ distance < recoveryHistoryObjects,
      state.deliveredMask.test distance = true ↔
        distance ≤ largest ∧ marked (largest - distance)
  blank : state.largestDelivered = none → state.deliveredMask = WordMask.zero

theorem represents_initial : Represents {} (fun _ => False) where
  initialized := by simp
  largest_marked := by simp
  test_iff := by simp
  blank := by simp

theorem objectIsRecentlyDelivered_iff {state : ObjectGapState}
    (hrepresents : state.Represents marked) (objectId : Nat) :
    state.objectIsRecentlyDelivered objectId = true ↔
      ∃ largest, state.largestDelivered = some largest ∧ marked objectId ∧
        largest - objectId < recoveryHistoryObjects := by
  cases hlargest : state.largestDelivered with
  | none => simp [objectIsRecentlyDelivered, hlargest]
  | some largest =>
      by_cases hnewer : largest < objectId
      · have hunmarked : ¬ marked objectId := by
          intro hmarked
          obtain ⟨other, hother, hle⟩ := hrepresents.initialized objectId hmarked
          rw [hlargest] at hother
          injection hother with hother
          omega
        simp [objectIsRecentlyDelivered, hlargest, hnewer, hunmarked]
      · by_cases hrecent : largest - objectId < recoveryHistoryObjects
        · have htest := hrepresents.test_iff largest hlargest _ hrecent
          have hback : largest - (largest - objectId) = objectId := by omega
          have hle : largest - objectId ≤ largest := by omega
          rw [hback] at htest
          simp [objectIsRecentlyDelivered, hlargest, hnewer, hrecent, htest, hle]
        · simp [objectIsRecentlyDelivered, hlargest, hnewer, hrecent]

private theorem deliveredWords_bits : deliveredWords * 64 = recoveryHistoryObjects := by
  decide

private theorem test_first_word {distance : Nat} :
    @WordMask.test deliveredWords
        (fun word => if word.val = 0 then 1 else 0#64) distance = true ↔
      distance = 0 := by
  by_cases hinside : distance / 64 < deliveredWords
  · by_cases hword : distance / 64 = 0
    · have hsmall : distance < 64 := by omega
      simp [WordMask.test, hword, BitVec.getLsbD_one]
      omega
    · have hne : distance ≠ 0 := by omega
      simp [WordMask.test, hinside, hword, hne]
  · have hne : distance ≠ 0 := by
      intro hzero
      subst hzero
      exact hinside (by decide)
    simp [WordMask.test, hinside, hne]

theorem represents_mark_first {state : ObjectGapState}
    (hrepresents : state.Represents marked)
    (hblank : state.largestDelivered = none) (objectId : Nat) :
    (state.markObjectDelivered objectId).Represents
      (fun id => marked id ∨ id = objectId) := by
  have hunmarked : ∀ id, ¬ marked id := by
    intro id hmarked
    obtain ⟨largest, hlargest, _⟩ := hrepresents.initialized id hmarked
    simp [hblank] at hlargest
  have hmask : (state.markObjectDelivered objectId).deliveredMask =
      fun word => if word.val = 0 then 1 else 0#64 := by
    simp only [markObjectDelivered, hblank, hrepresents.blank hblank]
    rfl
  have hlargest :
      (state.markObjectDelivered objectId).largestDelivered = some objectId := by
    simp [markObjectDelivered, hblank]
  constructor
  · simp [hlargest, hunmarked]
  · simp [hlargest]
  · intro largest hsome distance hdistance
    rw [hlargest] at hsome
    injection hsome with hsome
    subst hsome
    rw [hmask, test_first_word]
    simp only [hunmarked, false_or]
    omega
  · simp [hlargest]

theorem represents_mark_newer {state : ObjectGapState}
    (hrepresents : state.Represents marked)
    (hlargest : state.largestDelivered = some largest)
    (hnewer : largest < objectId) :
    (state.markObjectDelivered objectId).Represents
      (fun id => marked id ∨ id = objectId) := by
  have hnewest : (state.markObjectDelivered objectId).largestDelivered =
      some objectId := by
    simp [markObjectDelivered, hlargest, hnewer]
  have hbound : ∀ id, marked id → id ≤ largest := by
    intro id hmarked
    obtain ⟨other, hother, hle⟩ := hrepresents.initialized id hmarked
    simp_all
  have htest : ∀ distance < recoveryHistoryObjects,
      (state.markObjectDelivered objectId).deliveredMask.test distance =
        (decide (objectId - largest ≤ distance) &&
            state.deliveredMask.test (distance - (objectId - largest)) ||
          decide (distance = 0)) := by
    intro distance hdistance
    have hzero : 0 < deliveredWords * 64 := by decide
    by_cases hshift : objectId - largest < recoveryHistoryObjects
    · simp [markObjectDelivered, hlargest, hnewer, hshift, WordMask.test_set _ hzero,
        WordMask.test_shiftUp, deliveredWords_bits, hdistance]
    · have hfar : ¬ objectId - largest ≤ distance := by omega
      simp [markObjectDelivered, hlargest, hnewer, hshift, hfar,
        WordMask.test_set _ hzero]
  constructor
  · rintro id (hmarked | rfl)
    · have := hbound id hmarked
      exact ⟨objectId, hnewest, by omega⟩
    · exact ⟨id, hnewest, le_refl _⟩
  · simp [hnewest]
  · intro newest hsome distance hdistance
    rw [hnewest] at hsome
    injection hsome with hsome
    subst hsome
    rw [htest distance hdistance]
    by_cases hzero : distance = 0
    · simp [hzero]
    by_cases hreach : objectId - largest ≤ distance
    · have hold := hrepresents.test_iff largest hlargest
        (distance - (objectId - largest)) (by omega)
      by_cases hinside : distance ≤ objectId
      · have hback : largest - (distance - (objectId - largest)) =
            objectId - distance := by omega
        have hne : objectId - distance ≠ objectId := by omega
        rw [hback] at hold
        simp [hreach, hzero, hold, hinside, hne]
        omega
      · have hout : ¬ distance - (objectId - largest) ≤ largest := by omega
        simp [hreach, hzero, hold, hinside, hout]
    · have hunmarked : ¬ marked (objectId - distance) := by
        intro hmarked
        have := hbound _ hmarked
        omega
      have hne : distance ≤ objectId → objectId - distance ≠ objectId := by omega
      simp [hreach, hzero, hunmarked]
      omega
  · simp [hnewest]

theorem represents_mark_older {state : ObjectGapState}
    (hrepresents : state.Represents marked)
    (hlargest : state.largestDelivered = some largest)
    (holder : objectId ≤ largest) :
    (state.markObjectDelivered objectId).Represents
      (fun id => marked id ∨ id = objectId) := by
  have hnewer : ¬ largest < objectId := by omega
  have hsame : (state.markObjectDelivered objectId).largestDelivered =
      some largest := by
    simp only [markObjectDelivered, hlargest, hnewer, if_false]
    split <;> simp [hlargest]
  have htest : ∀ distance < recoveryHistoryObjects,
      (state.markObjectDelivered objectId).deliveredMask.test distance =
        (state.deliveredMask.test distance ||
          decide (distance = largest - objectId)) := by
    intro distance hdistance
    by_cases hrecent : largest - objectId < recoveryHistoryObjects
    · have hinside : largest - objectId < deliveredWords * 64 := by
        rw [deliveredWords_bits]
        exact hrecent
      simp [markObjectDelivered, hlargest, hnewer, hrecent, WordMask.test_set _ hinside]
    · have hne : distance ≠ largest - objectId := by omega
      simp [markObjectDelivered, hlargest, hnewer, hrecent, hne]
  constructor
  · rintro id (hmarked | rfl)
    · obtain ⟨other, hother, hle⟩ := hrepresents.initialized id hmarked
      rw [hlargest] at hother
      exact ⟨largest, hsame, by simp_all⟩
    · exact ⟨largest, hsame, holder⟩
  · intro other hother
    rw [hsame] at hother
    exact Or.inl (hrepresents.largest_marked other (hlargest.trans hother))
  · intro other hother distance hdistance
    rw [hsame] at hother
    injection hother with hother
    subst hother
    rw [htest distance hdistance, Bool.or_eq_true,
      hrepresents.test_iff largest hlargest distance hdistance, decide_eq_true_iff]
    constructor
    · rintro (⟨hle, hmarked⟩ | rfl)
      · exact ⟨hle, Or.inl hmarked⟩
      · exact ⟨by omega, Or.inr (by omega)⟩
    · rintro ⟨hle, hmarked | heq⟩
      · exact Or.inl ⟨hle, hmarked⟩
      · exact Or.inr (by omega)
  · simp [hsame]

/-- Marking an object adds exactly its id to the represented set. -/
theorem represents_mark {state : ObjectGapState}
    (hrepresents : state.Represents marked) (objectId : Nat) :
    (state.markObjectDelivered objectId).Represents
      (fun id => marked id ∨ id = objectId) := by
  cases hlargest : state.largestDelivered with
  | none => exact represents_mark_first hrepresents hlargest objectId
  | some largest =>
      by_cases hnewer : largest < objectId
      · exact represents_mark_newer hrepresents hlargest hnewer
      · exact represents_mark_older hrepresents hlargest (by omega)

theorem represents_congr {state : ObjectGapState} (hsame : ∀ id, marked id ↔ other id)
    (hrepresents : state.Represents marked) : state.Represents other := by
  obtain rfl : marked = other := funext fun id => propext (hsame id)
  exact hrepresents

/-- The history answers yes for the marked objects and for those too old for it. -/
theorem objectWasDelivered_iff {state : ObjectGapState}
    (hrepresents : state.Represents marked) (objectId : Nat) :
    state.objectWasDelivered objectId = true ↔
      marked objectId ∨ ∃ newer, marked newer ∧ objectId + recoveryHistoryObjects ≤ newer := by
  cases hlargest : state.largestDelivered with
  | none =>
      have hunmarked : ∀ id, ¬ marked id := by
        intro id hmarked
        obtain ⟨largest, hsome, _⟩ := hrepresents.initialized id hmarked
        simp [hlargest] at hsome
      simp [objectWasDelivered, hlargest, hunmarked]
  | some largest =>
      have hbound : ∀ id, marked id → id ≤ largest := by
        intro id hmarked
        obtain ⟨other, hother, hle⟩ := hrepresents.initialized id hmarked
        simp_all
      have hmarked := hrepresents.largest_marked largest hlargest
      have hpositive : 0 < recoveryHistoryObjects := by decide
      unfold objectWasDelivered
      simp only [hlargest]
      split
      · next hnewer =>
          simp only [Bool.false_eq_true, false_iff, not_or, not_exists, not_and]
          refine ⟨fun h => ?_, fun newer h => ?_⟩
          · have := hbound objectId h
            omega
          · have := hbound newer h
            omega
      split
      · next hnewer hold =>
          simp only [true_iff]
          exact Or.inr ⟨largest, hmarked, by omega⟩
      · next hnewer hrecent =>
          have htest := hrepresents.test_iff largest hlargest (largest - objectId) (by omega)
          have hback : largest - (largest - objectId) = objectId := by omega
          rw [hback] at htest
          rw [htest]
          constructor
          · intro h
            exact Or.inl h.2
          · intro h
            cases h with
            | inl h => exact ⟨by omega, h⟩
            | inr h =>
                obtain ⟨newer, hnewest, hfar⟩ := h
                have := hbound newer hnewest
                omega

/-- The state after marking some objects in turn. -/
def markAllDelivered (marks : List Nat) : ObjectGapState :=
  marks.foldl markObjectDelivered {}

theorem represents_marks {state : ObjectGapState} (hrepresents : state.Represents marked)
    (marks : List Nat) :
    (marks.foldl markObjectDelivered state).Represents
      (fun id => marked id ∨ id ∈ marks) := by
  induction marks generalizing state marked with
  | nil => exact represents_congr (by simp) hrepresents
  | cons objectId rest ih =>
      have hrest := ih (represents_mark hrepresents objectId)
      exact represents_congr (by simp [or_assoc]) hrest

theorem represents_markAll (marks : List Nat) :
    (markAllDelivered marks).Represents (· ∈ marks) :=
  represents_congr (by simp) (represents_marks represents_initial marks)

/-- The newest object of a represented set. -/
theorem largestDelivered_iff {state : ObjectGapState}
    (hrepresents : state.Represents marked) (largest : Nat) :
    state.largestDelivered = some largest ↔
      marked largest ∧ ∀ id, marked id → id ≤ largest := by
  constructor
  · intro hsome
    refine ⟨hrepresents.largest_marked largest hsome, fun id hmarked => ?_⟩
    obtain ⟨other, hother, hle⟩ := hrepresents.initialized id hmarked
    obtain rfl := Option.some.inj (hsome.symm.trans hother)
    exact hle
  · rintro ⟨hmarked, hnewest⟩
    obtain ⟨other, hother, hle⟩ := hrepresents.initialized largest hmarked
    have hge := hnewest other (hrepresents.largest_marked other hother)
    rw [hother, Nat.le_antisymm hge hle]

/-- The bitmap answers like the set of marked ids. -/
theorem markAll_refines (marks : List Nat) (objectId : Nat) :
    ((markAllDelivered marks).objectIsRecentlyDelivered objectId = true ↔
      ∃ largest, (largest ∈ marks ∧ ∀ id ∈ marks, id ≤ largest) ∧
        objectId ∈ marks ∧ largest - objectId < recoveryHistoryObjects) ∧
    ((markAllDelivered marks).objectWasDelivered objectId = true ↔
      ∃ largest, (largest ∈ marks ∧ ∀ id ∈ marks, id ≤ largest) ∧
        objectId ≤ largest ∧
        (recoveryHistoryObjects ≤ largest - objectId ∨ objectId ∈ marks)) := by
  have hrepresents := represents_markAll marks
  constructor
  · rw [objectIsRecentlyDelivered_iff hrepresents]
    simp only [largestDelivered_iff hrepresents]
  · rw [objectWasDelivered_iff hrepresents]
    constructor
    · intro hdelivered
      have hsome : ∃ id, id ∈ marks := by
        rcases hdelivered with hmarked | ⟨newer, hmarked, _⟩
        · exact ⟨objectId, hmarked⟩
        · exact ⟨newer, hmarked⟩
      obtain ⟨id, hid⟩ := hsome
      obtain ⟨largest, hlargest, _⟩ := hrepresents.initialized id hid
      have hnewest := (largestDelivered_iff hrepresents largest).mp hlargest
      refine ⟨largest, hnewest, ?_⟩
      rcases hdelivered with hmarked | ⟨newer, hmarked, hfar⟩
      · exact ⟨hnewest.2 objectId hmarked, Or.inr hmarked⟩
      · have hle := hnewest.2 newer hmarked
        exact ⟨by omega, Or.inl (by omega)⟩
    · rintro ⟨largest, ⟨hmarked, _⟩, hle, hfar | hdelivered⟩
      · exact Or.inr ⟨largest, hmarked, by omega⟩
      · exact Or.inl hdelivered

end ObjectGapState

end Qlinq
