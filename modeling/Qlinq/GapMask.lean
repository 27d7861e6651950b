import Qlinq.IngressFrame
import Qlinq.Suppression

namespace Qlinq

/-! The gap mask of a subscription: which objects its bits stand for. -/

/-- A datagram that was noted as seen, under the subscription it came for. -/
structure Arrival where
  generation : Nat
  groupId : Nat
  objectId : Nat
  deriving DecidableEq, Repr

/-- An arrival of the group went past the object, after arrivals that were all below it,
and no symbol of the object arrived since. -/
def Skipped (arrivals : List Arrival) (groupId objectId : Nat) : Prop :=
  ∃ before skip after, arrivals = before ++ skip :: after ∧ before ≠ [] ∧
    (∀ arrival ∈ before, arrival.objectId < objectId) ∧
    skip.groupId = groupId ∧ objectId < skip.objectId ∧
    ∀ arrival ∈ after, ¬(arrival.groupId = groupId ∧ arrival.objectId = objectId)

theorem Skipped.exists_past (hskipped : Skipped arrivals groupId objectId) :
    ∃ skip ∈ arrivals, skip.groupId = groupId ∧ objectId < skip.objectId := by
  obtain ⟨before, skip, after, rfl, -, -, hgroup, hpast, -⟩ := hskipped
  exact ⟨skip, by simp, hgroup, hpast⟩

theorem Skipped.arrive (hskipped : Skipped arrivals groupId objectId)
    (hother : arrival.objectId ≠ objectId) : Skipped (arrivals ++ [arrival]) groupId objectId := by
  obtain ⟨before, skip, after, rfl, hne, hbefore, hgroup, hpast, hafter⟩ := hskipped
  refine ⟨before, skip, after ++ [arrival], by simp, hne, hbefore, hgroup, hpast, ?_⟩
  intro later hlater
  rcases List.mem_append.mp hlater with hold | hnew
  · exact hafter later hold
  · rw [List.mem_singleton.mp hnew]
    exact fun h => hother h.2

namespace ObjectGapState

/-! ### Shifts of the mask -/

/-- The amounts `queue_missing_objects` shifts by. -/
def queueShifts (state : ObjectGapState) (firstMissing missingCount : Nat) : List Nat :=
  if missingCount = 0 ∨ 32 < missingCount then
    []
  else
    let base := if state.pendingMask = 0 then firstMissing else state.pendingBase
    if firstMissing < base ∨ 32 ≤ firstMissing - base then
      []
    else
      let offset := firstMissing - base
      let count := min missingCount (32 - offset)
      if count = 32 then [offset] else [count, offset]

/-- The amounts that gap tracking shifts by. -/
def observeShifts (state : ObjectGapState) (objectId : Nat) : List Nat :=
  match state.lastSeen with
  | none => []
  | some lastSeen =>
      if lastSeen < objectId then
        if 1 < objectId - lastSeen then
          state.queueShifts (lastSeen + 1) (objectId - (lastSeen + 1))
        else
          []
      else if state.pendingMask ≠ 0 ∧ state.pendingBase ≤ objectId ∧
          objectId - state.pendingBase < 32 then
        [objectId - state.pendingBase]
      else
        []

/-- The amounts `retire_recovery_through` shifts by. -/
def retireShifts (state : ObjectGapState) (groupId finalObjectId : Nat) : List Nat :=
  if state.pendingMask ≠ 0 ∧ state.groupId = groupId ∧ state.pendingBase ≤ finalObjectId then
    if 31 ≤ finalObjectId - state.pendingBase then [] else [finalObjectId - state.pendingBase + 1]
  else
    []

theorem queueShifts_lt (state : ObjectGapState) (firstMissing missingCount : Nat) :
    ∀ amount ∈ state.queueShifts firstMissing missingCount, amount < 32 := by
  unfold queueShifts
  extract_lets base offset count
  intro amount hamount
  split at hamount
  · cases hamount
  split at hamount
  · cases hamount
  next hvalid hinside =>
  have hoffset : offset < 32 := by
    have := Nat.not_le.mp (not_or.mp hinside).2
    exact this
  split at hamount
  · rw [List.mem_singleton.mp hamount]
    exact hoffset
  · next hpartial =>
    have hcount : count < 32 :=
      Nat.lt_of_le_of_ne (Nat.le_trans (Nat.min_le_right _ _) (Nat.sub_le _ _)) hpartial
    rcases List.mem_pair.mp hamount with rfl | rfl
    · exact hcount
    · exact hoffset

theorem observeShifts_lt (state : ObjectGapState) (objectId : Nat) :
    ∀ amount ∈ state.observeShifts objectId, amount < 32 := by
  unfold observeShifts
  intro amount hamount
  split at hamount
  · cases hamount
  split at hamount
  · split at hamount
    · exact queueShifts_lt _ _ _ amount hamount
    · cases hamount
  · split at hamount
    · next hinside =>
      rw [List.mem_singleton.mp hamount]
      exact hinside.2.2
    · cases hamount

theorem retireShifts_lt (state : ObjectGapState) (groupId finalObjectId : Nat) :
    ∀ amount ∈ state.retireShifts groupId finalObjectId, amount < 32 := by
  unfold retireShifts
  intro amount hamount
  split at hamount
  · split at hamount
    · cases hamount
    · rw [List.mem_singleton.mp hamount]
      omega
  · cases hamount

/-! ### Bits of the mask -/

theorem getLsbD_lowBits : ∀ count < 32, ∀ bit < 32,
    ((1#32 <<< count) - 1).getLsbD bit = decide (bit < count) := by
  decide +kernel

theorem getLsbD_run {count offset bit : Nat} (hcount : count + offset ≤ 32)
    (hbit : ((if count = 32 then BitVec.allOnes 32 else (1#32 <<< count) - 1) <<< offset).getLsbD
      bit = true) : offset ≤ bit ∧ bit < offset + count := by
  rw [BitVec.getLsbD_shiftLeft, Bool.and_eq_true, Bool.and_eq_true] at hbit
  obtain ⟨⟨hinside, hoffset⟩, hbit⟩ := hbit
  simp only [decide_eq_true_eq, Bool.not_eq_true', decide_eq_false_iff_not, Nat.not_lt]
    at hinside hoffset
  split at hbit
  · omega
  · rw [getLsbD_lowBits count (by omega) _ (by omega), decide_eq_true_eq] at hbit
    omega

/-- The gap is added to a mask that waits for other objects already. -/
def extendsMask (state : ObjectGapState) (firstMissing missingCount : Nat) : Prop :=
  state.pendingMask ≠ 0 ∧ missingCount ≤ 32 ∧ state.pendingBase ≤ firstMissing ∧
    firstMissing - state.pendingBase < 32

instance (state : ObjectGapState) (firstMissing missingCount : Nat) :
    Decidable (state.extendsMask firstMissing missingCount) :=
  inferInstanceAs (Decidable (_ ∧ _))

/-- A bit of the mask was set before, or stands for one of the objects missing now. -/
theorem getLsbD_queueMissingObjects {state : ObjectGapState}
    {groupId firstMissing missingCount : Nat} (hcount : 0 < missingCount)
    (hkept : state.extendsMask firstMissing missingCount → groupId = state.groupId)
    (hbit : (state.queueMissingObjects groupId firstMissing missingCount).pendingMask.getLsbD bit =
      true) :
    let queued := state.queueMissingObjects groupId firstMissing missingCount
    (state.pendingMask.getLsbD bit = true ∧ queued.pendingBase = state.pendingBase ∧
      queued.groupId = state.groupId) ∨
    (firstMissing ≤ queued.pendingBase + bit ∧
      queued.pendingBase + bit < firstMissing + missingCount ∧ queued.groupId = groupId) := by
  unfold queueMissingObjects at hbit ⊢
  split at hbit
  · next hinvalid => exact .inl ⟨hbit, by rw [if_pos hinvalid], by rw [if_pos hinvalid]⟩
  next hvalid =>
  rw [if_neg hvalid]
  have hsmall : missingCount ≤ 32 := by omega
  by_cases hblank : state.pendingMask = 0
  · rw [if_pos hblank] at hbit ⊢
    simp only [Nat.sub_self, Nat.lt_irrefl, false_or, Nat.sub_zero] at hbit ⊢
    rw [if_neg (by omega)] at hbit ⊢
    dsimp only at hbit ⊢
    rw [BitVec.getLsbD_or, hblank] at hbit
    have hrun := getLsbD_run (by omega : min missingCount 32 + 0 ≤ 32) (by simpa using hbit)
    exact .inr ⟨by omega, by omega, rfl⟩
  · simp only [hblank, if_false] at hbit ⊢
    split at hbit
    · next houtside => exact .inl ⟨hbit, by rw [if_pos houtside], by rw [if_pos houtside]⟩
    · next hinside =>
      rw [if_neg hinside]
      dsimp only at hbit ⊢
      rw [BitVec.getLsbD_or, Bool.or_eq_true] at hbit
      rcases hbit with hold | hnew
      · exact .inl ⟨hold, rfl, rfl⟩
      · have hrun := getLsbD_run (by omega) hnew
        exact .inr ⟨by omega, by omega,
          (hkept ⟨hblank, hsmall, by omega, by omega⟩).symm⟩

/-! ### What a state remembers of the arrivals -/

/-- `lastSeen` is the highest object that arrived, and every bit of the mask stands for
an object that was skipped. -/
structure Traces (state : ObjectGapState) (arrivals : List Arrival) : Prop where
  unseen : state.lastSeen = none → arrivals = []
  seen : ∀ lastSeen, state.lastSeen = some lastSeen →
    arrivals ≠ [] ∧ ∀ arrival ∈ arrivals, arrival.objectId ≤ lastSeen
  pending : ∀ bit, state.pendingMask.getLsbD bit = true →
    Skipped arrivals state.groupId (state.pendingBase + bit)

theorem traces_initial : Traces {} [] where
  unseen _ := rfl
  seen _ h := nomatch h
  pending bit hbit := absurd hbit (by simp)

theorem Traces.narrows (htraces : Traces left arrivals) (hnarrows : Narrows left right) :
    Traces right arrivals where
  unseen h := htraces.unseen (hnarrows.lastSeen ▸ h)
  seen lastSeen h := htraces.seen lastSeen (hnarrows.lastSeen ▸ h)
  pending bit hbit := by
    rw [hnarrows.groupId, hnarrows.pendingBase]
    exact htraces.pending bit (hnarrows.pending bit hbit)

/-- An arrival adds to a mask that is waiting already only what its own group lacks. -/
def GroupKept (state : ObjectGapState) (groupId objectId : Nat) : Prop :=
  ∀ lastSeen, state.lastSeen = some lastSeen → lastSeen + 1 < objectId →
    state.extendsMask (lastSeen + 1) (objectId - (lastSeen + 1)) → groupId = state.groupId

instance (state : ObjectGapState) (groupId objectId : Nat) :
    Decidable (state.GroupKept groupId objectId) :=
  match hseen : state.lastSeen with
  | none => isTrue fun _ h => nomatch hseen.symm.trans h
  | some lastSeen =>
      decidable_of_iff (lastSeen + 1 < objectId →
        state.extendsMask (lastSeen + 1) (objectId - (lastSeen + 1)) → groupId = state.groupId)
        ⟨fun h _ hlast => Option.some.inj (hseen.symm.trans hlast) ▸ h,
          fun h => h lastSeen hseen⟩

theorem Traces.observe {arrival : Arrival} (htraces : Traces state arrivals)
    (hkept : state.GroupKept arrival.groupId arrival.objectId) :
    Traces (state.observe arrival.groupId arrival.objectId) (arrivals ++ [arrival]) := by
  cases hseen : state.lastSeen with
  | none =>
      have hempty := htraces.unseen hseen
      subst hempty
      refine ⟨?_, ?_, ?_⟩
      · simp [ObjectGapState.observe, hseen]
      · intro lastSeen h
        simp only [ObjectGapState.observe, hseen, Option.some.injEq] at h
        simp [h]
      · intro bit hbit
        simp only [ObjectGapState.observe, hseen] at hbit
        obtain ⟨skip, hskip, -⟩ := (htraces.pending bit hbit).exists_past
        cases hskip
  | some lastSeen =>
      obtain ⟨hne, hle⟩ := htraces.seen lastSeen hseen
      have hbelow : ∀ bit, state.pendingMask.getLsbD bit = true →
          state.pendingBase + bit < lastSeen := by
        intro bit hbit
        obtain ⟨skip, hskip, -, hpast⟩ := (htraces.pending bit hbit).exists_past
        exact Nat.lt_of_lt_of_le hpast (hle skip hskip)
      by_cases hnewer : lastSeen < arrival.objectId
      · have hlast : (state.observe arrival.groupId arrival.objectId).lastSeen =
            some arrival.objectId := by
          simp [ObjectGapState.observe, hseen, hnewer]
        refine ⟨fun h => absurd (hlast.symm.trans h) (by simp), ?_, ?_⟩
        · intro last h
          rw [hlast, Option.some.injEq] at h
          subst h
          refine ⟨by simp, fun other hother => ?_⟩
          rcases List.mem_append.mp hother with hold | hnew
          · have := hle other hold
            omega
          · rw [List.mem_singleton.mp hnew]
        · intro bit hbit
          by_cases hgap : 1 < arrival.objectId - lastSeen
          · simp only [ObjectGapState.observe, hseen, hnewer, hgap, if_true] at hbit ⊢
            rcases getLsbD_queueMissingObjects (by omega)
                (hkept lastSeen hseen (by omega)) hbit with
              ⟨hold, hbase, hgroup⟩ | ⟨hfirst, hend, hgroup⟩
            · rw [hbase, hgroup]
              have := hbelow bit hold
              exact (htraces.pending bit hold).arrive (by omega)
            · refine ⟨arrivals, arrival, [], rfl, hne, fun other hother => ?_, hgroup.symm,
                by omega, by simp⟩
              have := hle other hother
              omega
          · simp only [ObjectGapState.observe, hseen, hnewer, hgap, if_true, if_false] at hbit ⊢
            have := hbelow bit hbit
            exact (htraces.pending bit hbit).arrive (by omega)
      · have hlast : (state.observe arrival.groupId arrival.objectId).lastSeen = some lastSeen := by
          unfold ObjectGapState.observe
          rw [hseen]
          dsimp only
          rw [if_neg hnewer]
          split
          · rfl
          · exact hseen
        refine ⟨fun h => absurd (hlast.symm.trans h) (by simp), ?_, ?_⟩
        · intro last h
          rw [hlast, Option.some.injEq] at h
          subst h
          refine ⟨by simp, fun other hother => ?_⟩
          rcases List.mem_append.mp hother with hold | hnew
          · exact hle other hold
          · rw [List.mem_singleton.mp hnew]
            exact Nat.not_lt.mp hnewer
        · intro bit hbit
          unfold ObjectGapState.observe at hbit ⊢
          rw [hseen] at hbit ⊢
          dsimp only at hbit ⊢
          rw [if_neg hnewer] at hbit ⊢
          split at hbit
          · next hinside =>
            rw [if_pos hinside]
            dsimp only at hbit ⊢
            rw [BitVec.getLsbD_and, Bool.and_eq_true] at hbit
            refine (htraces.pending bit hbit.1).arrive ?_
            intro hsame
            have hcleared := hbit.2
            rw [show bit = arrival.objectId - state.pendingBase by omega] at hcleared
            simp [BitVec.getLsbD_shiftLeft] at hcleared
          · next houtside =>
            rw [if_neg houtside]
            refine (htraces.pending bit hbit).arrive ?_
            intro hsame
            have hbit32 : bit < 32 := BitVec.lt_of_getLsbD hbit
            refine houtside ⟨?_, by omega, by omega⟩
            intro hblank
            rw [hblank] at hbit
            simp at hbit

end ObjectGapState

namespace Conn

/-! ### Runs of a receiver -/

/-- Bindings and generations stay, and no gap state waits for anything new. -/
structure KeepsGaps (c c' : Conn) : Prop where
  findByAlias : ∀ a,
    c'.receiveSubscriptions.findByAlias a = c.receiveSubscriptions.findByAlias a
  generation : ∀ a, c'.receiveGeneration a = c.receiveGeneration a
  nextGeneration :
    c'.receiveSubscriptions.nextGeneration = c.receiveSubscriptions.nextGeneration
  gap : ∀ a, (c.objectGap a).Narrows (c'.objectGap a)

theorem KeepsGaps.of_table {c c' : Conn}
    (htable : c'.receiveSubscriptions = c.receiveSubscriptions) : KeepsGaps c c' where
  findByAlias a := by rw [htable]
  generation a := by simp only [receiveGeneration, htable]
  nextGeneration := by rw [htable]
  gap a := by simp only [objectGap, htable]; exact .refl _

theorem KeepsGaps.trans {c c' c'' : Conn} (hfirst : KeepsGaps c c')
    (hsecond : KeepsGaps c' c'') : KeepsGaps c c'' where
  findByAlias a := (hsecond.findByAlias a).trans (hfirst.findByAlias a)
  generation a := (hsecond.generation a).trans (hfirst.generation a)
  nextGeneration := hsecond.nextGeneration.trans hfirst.nextGeneration
  gap a := (hfirst.gap a).trans (hsecond.gap a)

theorem keepsGaps_setObjectGap {c : Conn} (hnarrows : (c.objectGap a).Narrows gap) :
    KeepsGaps c (c.setObjectGap a gap) where
  findByAlias b := SubscriptionTable.findByAlias_modifyState _ _ _ _
  generation b := receiveGeneration_setObjectGap c a b gap
  nextGeneration := rfl
  gap b := by
    rw [objectGap_setObjectGap]
    split
    · next hb =>
        rw [hb.1]
        exact hnarrows
    · exact .refl _

/-- Only a datagram that is noted as seen adds a gap. -/
theorem storageFrame_keepsGaps : StorageFrame KeepsGaps where
  refl _ := .of_table rfl
  trans := .trans
  closed _ _ := .of_table rfl
  drained _ _ := .of_table rfl
  written _ _ _ _ := .of_table rfl
  acceptedWindows _ _ := .of_table rfl
  assemblers _ _ := .of_table rfl
  objectGap _ _ _ hsettles := keepsGaps_setObjectGap hsettles.narrows
  stored _ _ _ _ _ _ := .of_table rfl
  marked _ _ _ hnarrows := keepsGaps_setObjectGap hnarrows

theorem keepsGaps_receiveHello (c : Conn) (limits : TransportLimits) (hello : Hello) :
    KeepsGaps c (c.receiveHello limits hello) := by
  unfold receiveHello
  split
  · exact .of_table rfl
  split
  · exact storageFrame_keepsGaps.protocolClose c _
  · exact .of_table rfl

theorem keepsGaps_respondAuth (c : Conn) (success : Bool) :
    KeepsGaps c (c.respondAuth success) := by
  unfold respondAuth
  split
  · exact .of_table rfl
  split
  · exact .of_table rfl
  · exact storageFrame_keepsGaps.quiclyClose c _ _

/-- What an operation brings that is noted as seen. -/
def arrivalOf (c : Conn) : ReceiveOp → Option Arrival
  | .datagram _ datagram =>
      let header := datagram.message.header
      if c.observes datagram.message then
        some
          { generation := c.receiveGeneration header.trackAlias
            groupId := header.groupId
            objectId := header.objectId }
      else
        none
  | _ => none

/-- A step leaves the gaps alone, takes one arrival, or is a subscription call. -/
theorem receive_gaps (limits : TransportLimits) (c : Conn) (op : ReceiveOp) :
    (c.arrivalOf op = none ∧
      (KeepsGaps c (receive limits c op) ∨ Resubscribes c (receive limits c op))) ∨
    ∃ env datagram, op = .datagram env datagram ∧ c.observes datagram.message = true ∧
      KeepsGaps (c.observed datagram.message.header) (receive limits c op) := by
  cases op with
  | hello hello => exact .inl ⟨rfl, .inl (keepsGaps_receiveHello c limits hello)⟩
  | respondAuth success => exact .inl ⟨rfl, .inl (keepsGaps_respondAuth c success)⟩
  | subscribe track => exact .inl ⟨rfl, .inr (resubscribes_subscribeConnection c track)⟩
  | unsubscribe track => exact .inl ⟨rfl, .inr (resubscribes_unsubscribeConnection c track)⟩
  | datagram env datagram =>
      rcases storageFrame_keepsGaps.delivers.receiveDatagram c env datagram with
        ⟨hunseen, hkept⟩ | ⟨hseen, hkept⟩
      · exact .inl ⟨if_neg (Bool.eq_false_iff.mp hunseen), .inl hkept⟩
      · exact .inr ⟨env, datagram, rfl, hseen, hkept⟩
  | _ =>
      exact .inl ⟨rfl, .inl (storageFrame_keepsGaps.receive limits c rfl
        (fun _ _ h => nomatch h))⟩

/-- A receiver and what it noted as seen so far, oldest first. -/
structure Watched where
  conn : Conn
  arrivals : List Arrival

namespace Watched

def init (id : Nat) (limits : TransportLimits) : Watched where
  conn := Conn.init id limits
  arrivals := []

def receive (limits : TransportLimits) (s : Watched) (op : ReceiveOp) : Watched where
  conn := s.conn.receive limits op
  arrivals := s.arrivals ++ (s.conn.arrivalOf op).toList

/-- What arrived under the subscription that an alias has now. -/
def arrivalsOf (s : Watched) (a : TrackAlias) : List Arrival :=
  s.arrivals.filter fun arrival => arrival.generation = s.conn.receiveGeneration a

/-- Every bit of the mask of a subscription stands for an object that was skipped. -/
def MaskSound (s : Watched) : Prop :=
  ∀ a track, s.conn.receiveSubscriptions.findByAlias a = some track →
    ∀ bit, (s.conn.objectGap a).pendingMask.getLsbD bit = true →
      Skipped (s.arrivalsOf a) (s.conn.objectGap a).groupId
        ((s.conn.objectGap a).pendingBase + bit)

/-- A datagram noted as seen adds to a waiting mask only what its own group lacks. -/
def GroupKept (s : Watched) : ReceiveOp → Prop
  | .datagram _ datagram =>
      s.conn.observes datagram.message = true →
        (s.conn.objectGap datagram.message.header.trackAlias).GroupKept
          datagram.message.header.groupId datagram.message.header.objectId
  | _ => True

instance (s : Watched) : ∀ op, Decidable (s.GroupKept op)
  | .datagram _ _ => inferInstanceAs (Decidable (_ → _))
  | .hello _ | .respondAuth _ | .subscribe _ | .unsubscribe _ | .trackObject _ _
  | .trackCheckpoint _ | .trackEnd _ | .expire _ | .flushAcks | .sendNack _ _
  | .admissions _ | .close _ _ => isTrue trivial

/-- What every run keeps: each subscription's state remembers its own arrivals. -/
structure Remembers (s : Watched) : Prop where
  recalls : s.conn.Recalls
  generations : ∀ arrival ∈ s.arrivals,
    arrival.generation ≤ s.conn.receiveSubscriptions.nextGeneration
  traces : ∀ a track, s.conn.receiveSubscriptions.findByAlias a = some track →
    (s.conn.objectGap a).Traces (s.arrivalsOf a)

theorem remembers_init (id : Nat) (limits : TransportLimits) : (init id limits).Remembers where
  recalls := recalls_init id limits
  generations := by simp [init]
  traces a track hbound := by
    simp [init, Conn.init, SubscriptionTable.init, SubscriptionTable.findByAlias,
      Keyed.lookup] at hbound

theorem Remembers.maskSound (hremembers : Remembers s) : s.MaskSound :=
  fun a track hbound => (hremembers.traces a track hbound).pending

/-- A step without an arrival. -/
theorem Remembers.quiet {s : Watched} (hremembers : s.Remembers) (hrecalls : c.Recalls)
    (hstep : KeepsGaps s.conn c ∨ Resubscribes s.conn c) :
    Remembers { conn := c, arrivals := s.arrivals } := by
  cases hstep with
  | inl hkept =>
      refine ⟨hrecalls, ?_, ?_⟩
      · intro arrival harrival
        exact hkept.nextGeneration ▸ hremembers.generations arrival harrival
      · intro a track hbound
        have htraces := hremembers.traces a track (hkept.findByAlias a ▸ hbound)
        simp only [arrivalsOf, hkept.generation a]
        exact htraces.narrows (hkept.gap a)
  | inr hcalls =>
      obtain ⟨fresh, hbindings⟩ := hcalls.bindings
      refine ⟨hrecalls, ?_, ?_⟩
      · intro arrival harrival
        exact Nat.le_trans (hremembers.generations arrival harrival) hcalls.nextGeneration
      · intro a track hbound
        rcases hbindings a track hbound with
          ⟨hold, hgeneration, hgap⟩ | ⟨-, -, hgeneration, hgap⟩
        · simp only [arrivalsOf, hgeneration, hgap]
          exact hremembers.traces a track hold
        · have hnone : arrivalsOf { conn := c, arrivals := s.arrivals } a = [] := by
            apply List.filter_eq_nil_iff.mpr
            intro arrival harrival
            have hle := hremembers.generations arrival harrival
            simp only [hgeneration, decide_eq_true_eq]
            omega
          rw [hnone, hgap]
          exact ObjectGapState.traces_initial

/-- The bindings of a connection that noted an object as seen are as before. -/
theorem findByAlias_observed (c : Conn) (header : FecHeader) (a : TrackAlias) :
    (c.observed header).receiveSubscriptions.findByAlias a =
      c.receiveSubscriptions.findByAlias a :=
  SubscriptionTable.findByAlias_modifyState _ _ _ _

/-- One arrival is appended to what its own subscription remembers. -/
theorem Remembers.arrive {s : Watched} {header : FecHeader} (hremembers : s.Remembers)
    (hrecalls : c.Recalls)
    (hbound : s.conn.receiveSubscriptions.findByAlias header.trackAlias = some track)
    (hkept : (s.conn.objectGap header.trackAlias).GroupKept header.groupId header.objectId)
    (hstep : KeepsGaps (s.conn.observed header) c) :
    Remembers
      { conn := c
        arrivals := s.arrivals ++
          [⟨s.conn.receiveGeneration header.trackAlias, header.groupId, header.objectId⟩] } := by
  have hgeneration : ∀ a, c.receiveGeneration a = s.conn.receiveGeneration a := fun a =>
    (hstep.generation a).trans (receiveGeneration_setObjectGap _ _ _ _)
  have hnext : c.receiveSubscriptions.nextGeneration =
      s.conn.receiveSubscriptions.nextGeneration := hstep.nextGeneration
  refine ⟨hrecalls, ?_, ?_⟩
  · intro arrival harrival
    rw [hnext]
    rcases List.mem_append.mp harrival with hold | hnew
    · exact hremembers.generations arrival hold
    · rw [List.mem_singleton.mp hnew]
      exact hremembers.recalls.current _ track hbound
  · intro a other hother
    have hold : s.conn.receiveSubscriptions.findByAlias a = some other :=
      (findByAlias_observed s.conn header a).symm.trans
        ((hstep.findByAlias a).symm.trans hother)
    have htraces := hremembers.traces a other hold
    have hgap := hstep.gap a
    unfold Conn.observed at hgap
    rw [objectGap_setObjectGap] at hgap
    simp only [arrivalsOf, List.filter_append, hgeneration] at htraces ⊢
    by_cases hsame : a = header.trackAlias
    · subst hsame
      have hstate : (s.conn.receiveSubscriptions.getState header.trackAlias).isSome :=
        SubscriptionTable.getState_isSome_iff.mpr ⟨track, hbound⟩
      rw [if_pos ⟨rfl, hstate⟩] at hgap
      rw [List.filter_singleton]
      have harrived := @ObjectGapState.Traces.observe _ _ ⟨s.conn.receiveGeneration
        header.trackAlias, header.groupId, header.objectId⟩ htraces hkept
      simpa using harrived.narrows hgap
    · have hapart : s.conn.receiveGeneration header.trackAlias ≠ s.conn.receiveGeneration a :=
        fun h => hsame (hremembers.recalls.distinct a _ other track hold hbound h.symm)
      rw [if_neg fun h => hsame h.1] at hgap
      rw [List.filter_singleton]
      simpa [hapart] using htraces.narrows hgap

theorem remembers_receive (limits : TransportLimits) {s : Watched} (hremembers : s.Remembers)
    (hkept : s.GroupKept op) : (s.receive limits op).Remembers := by
  have hrecalls := recalls_receive limits hremembers.recalls op
  rcases receive_gaps limits s.conn op with
    ⟨hnone, hstep⟩ | ⟨env, datagram, rfl, hseen, hstep⟩
  · have hquiet := hremembers.quiet hrecalls hstep
    simpa [receive, hnone] using hquiet
  · obtain ⟨-, track, hbound, -⟩ := observes_iff.mp hseen
    have harrived := hremembers.arrive hrecalls hbound (hkept hseen) hstep
    simpa [receive, arrivalOf, hseen] using harrived

/-- In every run whose datagrams keep to the group of a mask they add to, every bit of a
mask stands for an object of the mask's group that was skipped and did not arrive since;
and no state shifts by the width of its mask, whatever comes. -/
theorem gap_mask_sound (id : Nat) (limits : TransportLimits) (ops : List ReceiveOp)
    (hkept : Machine.Along (receive limits) GroupKept (init id limits) ops) :
    (Machine.run (receive limits) (init id limits) ops).MaskSound ∧
      ∀ a groupId objectId,
        let state := (Machine.run (receive limits) (init id limits) ops).conn.objectGap a
        (∀ amount ∈ state.observeShifts objectId, amount < 32) ∧
          ∀ amount ∈ state.retireShifts groupId objectId, amount < 32 := by
  have hrun : (Machine.run (receive limits) (init id limits) ops).Remembers :=
    Machine.invariant_run
      (fun _ _ hremembers hok => remembers_receive limits hremembers hok)
      (remembers_init id limits) hkept
  refine ⟨hrun.maskSound, ?_⟩
  intro a groupId objectId state
  exact ⟨state.observeShifts_lt objectId, state.retireShifts_lt groupId objectId⟩

/-- Objects 0 and 2 of group 1 arrive, then one of another group. -/
def gapRun (groupId objectId : Nat) : List ReceiveOp :=
  subscribing defaultLimits feedTrack ++
    [.datagram quietReceive (singleSymbol feedTrack 8 1 0 [7]),
      .datagram quietReceive (singleSymbol feedTrack 8 1 2 [7]),
      .datagram quietReceive (singleSymbol feedTrack 8 groupId objectId [7])]

/-- Object 4 of group 2 leaves a bit for object 3 of group 1, which nothing skipped. -/
theorem other_group_named :
    let s := Machine.run (receive defaultLimits) (init 0 defaultLimits) (gapRun 2 4)
    ¬ s.MaskSound := by
  intro s hsound
  have harrivals : s.arrivalsOf 8 = [⟨1, 1, 0⟩, ⟨1, 1, 2⟩, ⟨1, 2, 4⟩] := by decide +kernel
  have hgap : (s.conn.objectGap 8).groupId = 1 ∧ (s.conn.objectGap 8).pendingBase = 1 ∧
      (s.conn.objectGap 8).pendingMask.getLsbD 2 = true := by decide +kernel
  have hskipped := hsound 8 feedTrack (by decide +kernel) 2 hgap.2.2
  rw [harrivals, hgap.1, hgap.2.1] at hskipped
  obtain ⟨skip, hmem, hgroup, hpast⟩ := hskipped.exists_past
  simp only [List.mem_cons, List.not_mem_nil, or_false] at hmem
  rcases hmem with rfl | rfl | rfl
  · simp at hpast
  · simp at hpast
  · simp at hgroup

theorem gap_mask_sound_own_group :
    let s := Machine.run (receive defaultLimits) (init 0 defaultLimits) (gapRun 1 4)
    s.MaskSound ∧ ∀ a groupId objectId,
      let state := s.conn.objectGap a
      (∀ amount ∈ state.observeShifts objectId, amount < 32) ∧
        ∀ amount ∈ state.retireShifts groupId objectId, amount < 32 := by
  exact gap_mask_sound 0 defaultLimits (gapRun 1 4) (by decide +kernel)

end Watched

end Conn

end Qlinq
