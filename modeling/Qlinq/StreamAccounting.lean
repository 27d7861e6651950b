import Qlinq.Lib.Totals
import Qlinq.StreamBudget

namespace Qlinq

/-! The counters of retained stream frames, charged by writes and released by ACKs and
stream destruction. -/

/-- The `stats` of an endpoint that account for its streams. -/
structure EgressStats where
  egressBytes : Nat := 0
  egressFrames : Nat := 0
  vectorCapacity : Nat := 0
  deriving DecidableEq, Repr

namespace EgressStats

/-- `none` where the subtraction underflows. -/
def subtract (total amount : Nat) : Option Nat :=
  if amount ≤ total then some (total - amount) else none

/-- `discard_frame`, with the bytes the stream retains; `none` where an assertion fails. -/
def discardFrame (stats : EgressStats) (retainedFrameBytes frameLen : Nat) :
    Option (EgressStats × Nat) := do
  let bytes := retainedFrameSize + frameLen
  let retainedFrameBytes ← subtract retainedFrameBytes bytes
  let egressBytes ← subtract stats.egressBytes bytes
  let egressFrames ← subtract stats.egressFrames 1
  return ({ stats with egressBytes, egressFrames }, retainedFrameBytes)

/-- Every frame is discarded. -/
def discardFrames (stats : EgressStats) (retainedFrameBytes : Nat) :
    List Nat → Option (EgressStats × Nat)
  | [] => some (stats, retainedFrameBytes)
  | frameLen :: rest => do
      let (stats, retainedFrameBytes) ← stats.discardFrame retainedFrameBytes frameLen
      discardFrames stats retainedFrameBytes rest

/-- `quicly_sendbuf_shift`: the acknowledged frames are discarded. -/
def shift (stats : EgressStats) (retainedFrameBytes delta offset : Nat) :
    List Nat → Option (EgressStats × Nat × List Nat × Nat)
  | [] => some (stats, retainedFrameBytes, [], 0)
  | frameLen :: rest =>
      if delta = 0 ∨ delta < frameLen - offset then
        some (stats, retainedFrameBytes, frameLen :: rest, offset + delta)
      else do
        let (stats, retainedFrameBytes) ← stats.discardFrame retainedFrameBytes frameLen
        shift stats retainedFrameBytes (delta - (frameLen - offset)) 0 rest

/-- `release_vector_capacity`. -/
def releaseVectorCapacity (stats : EgressStats) (count : Nat) : Option EgressStats :=
  if count = 0 then
    some stats
  else do
    let vectorCapacity ← subtract stats.vectorCapacity count
    let egressBytes ← subtract stats.egressBytes (count * sendbufVecSize)
    return { stats with egressBytes, vectorCapacity }

end EgressStats

/-- Retained frame bytes plus the bytes of the vector array. -/
def EgressStream.heldBytes (s : EgressStream) : Nat :=
  Egress.frameBytes s.frames + s.capacity * sendbufVecSize

/-- The streams of an endpoint with its counters; a destroyed stream stays behind empty. -/
structure StreamStore where
  streams : List EgressStream := []
  stats : EgressStats := {}
  deriving DecidableEq, Repr

namespace StreamStore

open Egress (WriteOutcome frameBytes shiftFrames shiftedCapacity)

def egress (store : StreamStore) : Egress where
  streams := store.streams
  egressBytes := store.stats.egressBytes
  vectorCapacity := store.stats.vectorCapacity

/-- `transport_stream_write_parts`.  Allocation is assumed to succeed. -/
def writeParts (limits : ConfiguredLimits) (store : StreamStore) (index : Nat)
    (applicationData : Bool) (frameLen : Nat) : StreamStore × WriteOutcome :=
  match store.streams[index]? with
  | none => (store, .refused)
  | some s =>
      if !store.egress.canAccept limits s frameLen applicationData then
        (store, if applicationData then .refused else .exhausted)
      else
        let growth := s.vectorGrowth
        let bytes := retainedFrameSize + frameLen
        ({ streams := store.streams.set index
            { s with
              frames := s.frames ++ [frameLen]
              capacity := s.capacity + growth
              retainedFrameBytes := s.retainedFrameBytes + bytes }
           stats :=
            { egressBytes := store.stats.egressBytes + growth * sendbufVecSize + bytes
              egressFrames := store.stats.egressFrames + 1
              vectorCapacity := store.stats.vectorCapacity + growth } }, .written)

/-- `transport_stream_egress_shift`; `compacts` where the smaller vector array can be
had. -/
def egressShift (store : StreamStore) (index delta : Nat) (compacts : Bool) :
    Option StreamStore :=
  match store.streams[index]? with
  | none => some store
  | some s => do
      let (stats, retainedFrameBytes, frames, offset) ←
        store.stats.shift s.retainedFrameBytes delta s.offset s.frames
      let capacity := shiftedCapacity s.capacity s.frames.length frames.length compacts
      let released ← EgressStats.subtract s.capacity capacity
      let stats ← stats.releaseVectorCapacity released
      return {
        streams := store.streams.set index { s with frames, offset, capacity, retainedFrameBytes }
        stats }

/-- `transport_stream_destroy`: the vectors are released before the frames. -/
def destroy (store : StreamStore) (index : Nat) : Option StreamStore :=
  match store.streams[index]? with
  | none => some store
  | some s => do
      let stats ← store.stats.releaseVectorCapacity s.capacity
      let (stats, _) ← stats.discardFrames s.retainedFrameBytes s.frames
      return {
        streams := store.streams.set index { isControl := s.isControl, isOpen := false }
        stats }

inductive StreamOp where
  | openStream (isControl : Bool)
  | write (stream : Nat) (applicationData : Bool) (frameLen : Nat)
  | acked (stream delta : Nat) (compacts : Bool)
  | shut (stream : Nat)
  | destroy (stream : Nat)
  deriving DecidableEq, Repr

/-- `none` where a counter would underflow. -/
def apply (limits : ConfiguredLimits) (store : StreamStore) : StreamOp → Option StreamStore
  | .openStream isControl =>
      some { store with streams := store.streams ++ [{ isControl := isControl }] }
  | .write stream applicationData frameLen =>
      some (store.writeParts limits stream applicationData frameLen).1
  | .acked stream delta compacts => store.egressShift stream delta compacts
  | .shut stream => some { store with streams := (store.egress.shutStream stream).streams }
  | .destroy stream => store.destroy stream

/-- The same operations on `Egress`. -/
def applyEgress (limits : ConfiguredLimits) (e : Egress) : StreamOp → Egress
  | .openStream isControl => { e with streams := e.streams ++ [{ isControl := isControl }] }
  | .write stream applicationData frameLen =>
      (e.writeFrame limits stream (if applicationData then .application else .essential)
        frameLen).1
  | .acked stream delta compacts => e.egressShift stream delta compacts
  | .shut stream => e.shutStream stream
  | .destroy stream => e.destroyStream stream

def run (limits : ConfiguredLimits) (ops : List StreamOp) : Option StreamStore :=
  ops.foldlM (apply limits) {}

/-! ### Frames and vectors are released as often as they are charged -/

theorem frameBytes_cons (frameLen : Nat) (rest : List Nat) :
    frameBytes (frameLen :: rest) = retainedFrameSize + frameLen + frameBytes rest :=
  rfl

theorem frameBytes_nil : frameBytes [] = 0 :=
  rfl

theorem frameBytes_concat (frames : List Nat) (frameLen : Nat) :
    frameBytes (frames ++ [frameLen]) = frameBytes frames + (retainedFrameSize + frameLen) := by
  simp [frameBytes]

theorem frameBytes_shiftFrames_le (delta offset : Nat) (frames : List Nat) :
    frameBytes (shiftFrames delta offset frames).1 ≤ frameBytes frames := by
  induction frames generalizing delta offset with
  | nil => exact Nat.le_refl _
  | cons frameLen rest ih =>
      unfold shiftFrames
      split
      · exact Nat.le_refl _
      · exact (ih _ _).trans (Nat.le_add_left _ _)

theorem subtract_of_le (hle : amount ≤ total) :
    EgressStats.subtract total amount = some (total - amount) :=
  if_pos hle

theorem discardFrame_spec {stats : EgressStats} (hretained : retainedFrameSize + frameLen ≤ bytes)
    (hbytes : retainedFrameSize + frameLen ≤ stats.egressBytes) (hframes : 1 ≤ stats.egressFrames) :
    stats.discardFrame bytes frameLen = some
      ({ stats with
          egressBytes := stats.egressBytes - (retainedFrameSize + frameLen)
          egressFrames := stats.egressFrames - 1 }, bytes - (retainedFrameSize + frameLen)) := by
  simp only [EgressStats.discardFrame, subtract_of_le hretained, subtract_of_le hbytes,
    subtract_of_le hframes]
  rfl

/-- The frames that are left are those of the send buffer, and no assertion fails. -/
theorem shift_spec (stats : EgressStats) (delta offset : Nat) {frames : List Nat}
    (hbytes : frameBytes frames ≤ stats.egressBytes)
    (hframes : frames.length ≤ stats.egressFrames) :
    ∃ after, stats.shift (frameBytes frames) delta offset frames =
        some (after, frameBytes (shiftFrames delta offset frames).1,
          shiftFrames delta offset frames) ∧
      after.egressBytes + frameBytes frames =
        stats.egressBytes + frameBytes (shiftFrames delta offset frames).1 ∧
      after.egressFrames + frames.length =
        stats.egressFrames + (shiftFrames delta offset frames).1.length ∧
      after.vectorCapacity = stats.vectorCapacity := by
  induction frames generalizing delta offset stats with
  | nil => exact ⟨stats, rfl, rfl, rfl, rfl⟩
  | cons frameLen rest ih =>
      simp only [EgressStats.shift, shiftFrames]
      by_cases hpartial : delta = 0 ∨ delta < frameLen - offset
      · rw [if_pos hpartial, if_pos hpartial]
        exact ⟨stats, rfl, rfl, rfl, rfl⟩
      · rw [if_neg hpartial, if_neg hpartial]
        rw [frameBytes_cons] at hbytes
        rw [List.length_cons] at hframes
        rw [discardFrame_spec (by rw [frameBytes_cons]; omega) (by omega) (by omega),
          frameBytes_cons, Nat.add_sub_cancel_left]
        obtain ⟨after, hshift, hafterBytes, hafterFrames, hvectors⟩ := ih
          { stats with
            egressBytes := stats.egressBytes - (retainedFrameSize + frameLen)
            egressFrames := stats.egressFrames - 1 }
          (delta - (frameLen - offset)) 0 (by simp only; omega) (by simp only; omega)
        refine ⟨after, hshift, ?_, ?_, hvectors⟩
        · simp only at hafterBytes
          omega
        · simp only [List.length_cons] at hafterFrames ⊢
          omega

theorem discardFrames_spec (stats : EgressStats) {frames : List Nat}
    (hbytes : frameBytes frames ≤ stats.egressBytes)
    (hframes : frames.length ≤ stats.egressFrames) :
    stats.discardFrames (frameBytes frames) frames = some
      ({ stats with
          egressBytes := stats.egressBytes - frameBytes frames
          egressFrames := stats.egressFrames - frames.length }, 0) := by
  induction frames generalizing stats with
  | nil => rfl
  | cons frameLen rest ih =>
      rw [frameBytes_cons] at hbytes ⊢
      rw [List.length_cons] at hframes ⊢
      simp only [EgressStats.discardFrames]
      rw [discardFrame_spec (by omega) (by omega) (by omega), Nat.add_sub_cancel_left]
      simp only [Option.bind_eq_bind, Option.bind_some]
      rw [ih _ (by simp only; omega) (by simp only; omega), Nat.sub_sub, Nat.sub_sub,
        Nat.add_comm 1]

theorem releaseVectorCapacity_spec (stats : EgressStats) (hvectors : count ≤ stats.vectorCapacity)
    (hbytes : count * sendbufVecSize ≤ stats.egressBytes) :
    stats.releaseVectorCapacity count = some
      { stats with
        egressBytes := stats.egressBytes - count * sendbufVecSize
        vectorCapacity := stats.vectorCapacity - count } := by
  unfold EgressStats.releaseVectorCapacity
  split
  · next hzero =>
      subst hzero
      rw [Nat.zero_mul]
      rfl
  · rw [subtract_of_le hvectors, subtract_of_le hbytes]
    rfl

/-- Doubling reaches what is needed. -/
theorem le_growCapacity (hneeded : needed ≤ capacity * 2 ^ fuel) :
    needed ≤ growCapacity needed fuel capacity := by
  induction fuel generalizing capacity with
  | zero => simpa [growCapacity] using hneeded
  | succ bits ih =>
      unfold growCapacity
      split
      · refine ih ?_
        rwa [Nat.mul_assoc, Nat.mul_comm 2, ← Nat.pow_succ]
      · omega

theorem le_shiftedCapacity (hsize : size ≤ before) (hbefore : before ≤ capacity)
    (hcapacity : capacity ≤ streamEndpointMaxVectors) (compacts : Bool) :
    size ≤ shiftedCapacity capacity before size compacts := by
  unfold shiftedCapacity
  extract_lets left
  have hleft : size ≤ left := by
    simp only [left]
    split <;> omega
  split
  · refine le_growCapacity (hsize.trans (hbefore.trans (hcapacity.trans ?_)))
    decide
  · exact hleft

/-! ### The invariant -/

/-- The counters are the sums over the streams and keep the limits. -/
structure Accounted (limits : ConfiguredLimits) (store : StreamStore) : Prop where
  bytes : store.stats.egressBytes = Totals.total EgressStream.heldBytes store.streams
  frames : store.stats.egressFrames = Totals.total (·.frames.length) store.streams
  vectors : store.stats.vectorCapacity = Totals.total EgressStream.capacity store.streams
  retained : ∀ s ∈ store.streams, s.retainedFrameBytes = frameBytes s.frames
  fits : ∀ s ∈ store.streams, s.frames.length ≤ s.capacity
  streamBytes : ∀ s ∈ store.streams, s.streamBytes ≤ limits.maxStreamEgressBytes
  streamFrames : ∀ s ∈ store.streams, s.frames.length ≤ s.frameLimit limits false
  totalBytes : store.stats.egressBytes ≤ limits.maxTotalStreamEgressBytes
  totalVectors : store.stats.vectorCapacity ≤ streamEndpointMaxVectors

variable {limits : ConfiguredLimits} {store : StreamStore} {s : EgressStream}

theorem accounted_init (limits : ConfiguredLimits) : Accounted limits {} where
  bytes := rfl
  frames := rfl
  vectors := rfl
  retained := by simp
  fits := by simp
  streamBytes := by simp
  streamFrames := by simp
  totalBytes := Nat.zero_le _
  totalVectors := Nat.zero_le _

/-- What a stream holds is part of the counters. -/
theorem Accounted.held_le (haccounted : Accounted limits store) (hs : s ∈ store.streams) :
    frameBytes s.frames + s.capacity * sendbufVecSize ≤ store.stats.egressBytes ∧
      s.frames.length ≤ store.stats.egressFrames ∧
      s.capacity ≤ store.stats.vectorCapacity := by
  rw [haccounted.bytes, haccounted.frames, haccounted.vectors]
  exact ⟨Totals.le_total EgressStream.heldBytes hs,
    Totals.le_total (fun s : EgressStream => s.frames.length) hs,
    Totals.le_total EgressStream.capacity hs⟩

/-- One stream changes, and the counters change as it does. -/
theorem Accounted.set (haccounted : Accounted limits store)
    (hs : store.streams[index]? = some s) {new : EgressStream} {stats : EgressStats}
    (hbytes : stats.egressBytes + s.heldBytes = store.stats.egressBytes + new.heldBytes)
    (hframes : stats.egressFrames + s.frames.length =
      store.stats.egressFrames + new.frames.length)
    (hvectors : stats.vectorCapacity + s.capacity = store.stats.vectorCapacity + new.capacity)
    (hretained : new.retainedFrameBytes = frameBytes new.frames)
    (hfits : new.frames.length ≤ new.capacity)
    (hstreamBytes : new.streamBytes ≤ limits.maxStreamEgressBytes)
    (hstreamFrames : new.frames.length ≤ new.frameLimit limits false)
    (htotalBytes : stats.egressBytes ≤ limits.maxTotalStreamEgressBytes)
    (htotalVectors : stats.vectorCapacity ≤ streamEndpointMaxVectors) :
    Accounted limits { streams := store.streams.set index new, stats := stats } := by
  have hset : ∀ {P : EgressStream → Prop}, (∀ other ∈ store.streams, P other) → P new →
      ∀ other ∈ store.streams.set index new, P other := by
    intro P hall hnew other hother
    cases List.mem_or_eq_of_mem_set hother with
    | inl hold => exact hall other hold
    | inr heq => exact heq ▸ hnew
  constructor
  · have htotal := Totals.total_set EgressStream.heldBytes hs new
    have := haccounted.bytes
    simp only
    omega
  · have htotal := Totals.total_set (fun s : EgressStream => s.frames.length) hs new
    have := haccounted.frames
    simp only at htotal ⊢
    omega
  · have htotal := Totals.total_set EgressStream.capacity hs new
    have := haccounted.vectors
    simp only
    omega
  · exact hset haccounted.retained hretained
  · exact hset haccounted.fits hfits
  · exact hset haccounted.streamBytes hstreamBytes
  · exact hset haccounted.streamFrames hstreamFrames
  · exact htotalBytes
  · exact htotalVectors

theorem byteLimit_le (limits : ConfiguredLimits) (s : EgressStream) (preserves : Bool) :
    s.byteLimit limits preserves ≤ limits.maxStreamEgressBytes :=
  Nat.sub_le _ _

theorem frameLimit_le (limits : ConfiguredLimits) (s : EgressStream) (preserves : Bool) :
    s.frameLimit limits preserves ≤ s.frameLimit limits false :=
  Nat.sub_le_sub_left (by simp) _

/-- The array has room behind its growth. -/
theorem length_lt_growth (s : EgressStream) (hfits : s.frames.length ≤ s.capacity) :
    s.frames.length < s.capacity + s.vectorGrowth := by
  unfold EgressStream.vectorGrowth
  split
  · omega
  · split <;> omega

theorem accounted_writeParts (haccounted : Accounted limits store) (index : Nat)
    (applicationData : Bool) (frameLen : Nat) :
    Accounted limits (store.writeParts limits index applicationData frameLen).1 := by
  unfold writeParts
  split
  · exact haccounted
  next s hs =>
  split
  · exact haccounted
  next haccept =>
  have hmem := List.mem_of_getElem? hs
  rw [Bool.not_eq_true', Bool.not_eq_false] at haccept
  obtain ⟨_, _, hframes, hstream, hbytes, hvectors⟩ := (Egress.canAccept_iff _ _).mp haccept
  have hlimit := byteLimit_le limits s applicationData
  have hframeLimit := frameLimit_le limits s applicationData
  have hroom := length_lt_growth s (haccounted.fits s hmem)
  have hcost : (s.capacity + s.vectorGrowth) * sendbufVecSize =
      s.capacity * sendbufVecSize + s.vectorGrowth * sendbufVecSize := Nat.add_mul _ _ _
  have hendpoint : Egress.byteLimit limits applicationData ≤ limits.maxTotalStreamEgressBytes :=
    Nat.sub_le _ _
  have hvectorLimit : Egress.vectorLimit applicationData ≤ streamEndpointMaxVectors :=
    Nat.sub_le _ _
  simp only [EgressStream.streamBytes, EgressStream.frameCost, egress] at hstream hbytes hvectors
  refine haccounted.set hs ?_ ?_ ?_ ?_ ?_ ?_ ?_ ?_ ?_
  · simp only [EgressStream.heldBytes, frameBytes_concat]
    omega
  · simp only [List.length_append, List.length_singleton]
    omega
  · simp only
    omega
  · simp only [frameBytes_concat, haccounted.retained s hmem]
  · simp only [List.length_append, List.length_singleton]
    omega
  · simp only [EgressStream.streamBytes]
    omega
  · simp only [List.length_append, List.length_singleton]
    exact hframes.trans_le hframeLimit
  · simp only
    omega
  · simp only
    omega

theorem accounted_egressShift (haccounted : Accounted limits store) (index delta : Nat)
    (compacts : Bool) : ∃ after, store.egressShift index delta compacts = some after ∧
      Accounted limits after ∧ after.egress = store.egress.egressShift index delta compacts := by
  cases hs : store.streams[index]? with
  | none =>
      refine ⟨store, ?_, haccounted, ?_⟩
      · simp only [egressShift, hs]
      · simp only [Egress.egressShift, egress, hs]
  | some s =>
      have hmem := List.mem_of_getElem? hs
      obtain ⟨hheld, hframes, hcapacity⟩ := haccounted.held_le hmem
      obtain ⟨stats, hshift, hbytes, hcount, hvectors⟩ :=
        shift_spec store.stats delta s.offset ((Nat.le_add_right _ _).trans hheld) hframes
      have hlength := Egress.length_shiftFrames delta s.offset s.frames
      have hfewer := frameBytes_shiftFrames_le delta s.offset s.frames
      have hfits := haccounted.fits s hmem
      have htotal := haccounted.totalVectors
      generalize hleft : shiftFrames delta s.offset s.frames = left at hshift hbytes hcount hlength hfewer
      have hshrinks := Egress.shiftedCapacity_le s.capacity s.frames.length left.1.length compacts
      have hroom := le_shiftedCapacity hlength hfits (hcapacity.trans htotal) compacts
      generalize hcompact : shiftedCapacity s.capacity s.frames.length left.1.length compacts =
        capacity at hshrinks hroom
      have hvectorBytes : capacity * sendbufVecSize + (s.capacity - capacity) * sendbufVecSize =
          s.capacity * sendbufVecSize := by
        rw [← Nat.add_mul]
        congr 1
        omega
      have hrelease := releaseVectorCapacity_spec stats (show s.capacity - capacity ≤ _ by omega)
        (by omega)
      have hretained := haccounted.retained s hmem
      have hrun : store.egressShift index delta compacts = some
          { streams := store.streams.set index
              { s with
                frames := left.1
                offset := left.2
                capacity := capacity
                retainedFrameBytes := frameBytes left.1 }
            stats :=
              { stats with
                egressBytes := stats.egressBytes - (s.capacity - capacity) * sendbufVecSize
                vectorCapacity := stats.vectorCapacity - (s.capacity - capacity) } } := by
        simp only [egressShift, hs, hretained, hshift, Option.bind_eq_bind, Option.bind_some,
          hcompact, subtract_of_le hshrinks, hrelease]
        rfl
      refine ⟨_, hrun, ?_, ?_⟩
      · have hperStream := haccounted.streamBytes s hmem
        have hperFrames := haccounted.streamFrames s hmem
        have hendpoint := haccounted.totalBytes
        simp only [EgressStream.streamBytes] at hperStream
        refine haccounted.set hs ?_ ?_ ?_ rfl hroom ?_ (hlength.trans hperFrames) ?_ ?_
        · simp only [EgressStream.heldBytes]
          omega
        · exact hcount
        · simp only
          omega
        · simp only [EgressStream.streamBytes]
          omega
        · simp only
          omega
        · simp only
          omega
      · simp only [egress, Egress.egressShift, hs, hleft, hcompact, hretained,
          Egress.mk.injEq]
        refine ⟨?_, ?_, ?_⟩
        · congr 2
          omega
        · omega
        · omega

theorem accounted_destroy (haccounted : Accounted limits store) (index : Nat) :
    ∃ after, store.destroy index = some after ∧ Accounted limits after ∧
      after.egress = store.egress.destroyStream index := by
  cases hs : store.streams[index]? with
  | none =>
      refine ⟨store, ?_, haccounted, ?_⟩
      · simp only [destroy, hs]
      · simp only [Egress.destroyStream, egress, hs]
  | some s =>
      have hmem := List.mem_of_getElem? hs
      obtain ⟨hheld, hframes, hcapacity⟩ := haccounted.held_le hmem
      have hretained := haccounted.retained s hmem
      have hendpoint := haccounted.totalBytes
      have htotal := haccounted.totalVectors
      have hrun : store.destroy index = some
          { streams := store.streams.set index { isControl := s.isControl, isOpen := false }
            stats :=
              { egressBytes := store.stats.egressBytes - s.capacity * sendbufVecSize -
                  frameBytes s.frames
                egressFrames := store.stats.egressFrames - s.frames.length
                vectorCapacity := store.stats.vectorCapacity - s.capacity } } := by
        have hdiscard := discardFrames_spec
          { store.stats with
            egressBytes := store.stats.egressBytes - s.capacity * sendbufVecSize
            vectorCapacity := store.stats.vectorCapacity - s.capacity }
          (show frameBytes s.frames ≤ _ by simp only; omega) hframes
        simp only [destroy, hs, hretained]
        rw [releaseVectorCapacity_spec _ hcapacity (by omega)]
        simp only [Option.bind_eq_bind, Option.bind_some, hdiscard]
        rfl
      refine ⟨_, hrun, ?_, ?_⟩
      · refine haccounted.set hs ?_ ?_ ?_ rfl (Nat.le_refl _) (Nat.zero_le _) (Nat.zero_le _) ?_ ?_
        · simp only [EgressStream.heldBytes, frameBytes_nil, Nat.zero_mul]
          omega
        · simp only [List.length_nil]
          omega
        · simp only
          omega
        · simp only
          omega
        · simp only
          omega
      · simp only [egress, Egress.destroyStream, hs]

theorem writeFrame_fst {e : Egress} (hs : e.streams[index]? = some s) (applicationData : Bool)
    (frameLen : Nat) :
    (e.writeFrame limits index (if applicationData then .application else .essential)
        frameLen).1 =
      if e.canAccept limits s frameLen applicationData then e.retain index s frameLen else e := by
  simp only [Egress.writeFrame, hs]
  cases applicationData with
  | true => cases e.canAccept limits s frameLen true <;> simp
  | false => cases e.canAccept limits s frameLen false <;> simp

theorem egress_writeParts (store : StreamStore) (index : Nat) (applicationData : Bool)
    (frameLen : Nat) :
    (store.writeParts limits index applicationData frameLen).1.egress =
      (store.egress.writeFrame limits index
        (if applicationData then .application else .essential) frameLen).1 := by
  cases hs : store.streams[index]? with
  | none => simp only [writeParts, Egress.writeFrame, egress, hs]
  | some s =>
      have hegress : store.egress.streams[index]? = some s := hs
      rw [writeFrame_fst hegress]
      simp only [writeParts, hs]
      cases haccept : store.egress.canAccept limits s frameLen applicationData with
      | false => rfl
      | true =>
          have hcost : store.stats.egressBytes + s.vectorGrowth * sendbufVecSize +
              (retainedFrameSize + frameLen) =
              store.stats.egressBytes + s.frameCost frameLen := by
            simp only [EgressStream.frameCost]
            omega
          simp only [Bool.not_true, Bool.false_eq_true, if_false, if_true, egress,
            Egress.retain, hcost]

theorem accounted_shut (haccounted : Accounted limits store) (index : Nat) :
    Accounted limits { store with streams := (store.egress.shutStream index).streams } := by
  cases hs : store.streams[index]? with
  | none => simpa only [Egress.shutStream, egress, hs] using haccounted
  | some s =>
      have hmem := List.mem_of_getElem? hs
      simp only [Egress.shutStream, egress, hs]
      exact haccounted.set hs rfl rfl rfl (haccounted.retained s hmem) (haccounted.fits s hmem)
        (haccounted.streamBytes s hmem) (haccounted.streamFrames s hmem) haccounted.totalBytes
        haccounted.totalVectors

theorem accounted_openStream (haccounted : Accounted limits store) (isControl : Bool) :
    Accounted limits
      { store with streams := store.streams ++ [{ isControl := isControl }] } := by
  have hconcat : ∀ {P : EgressStream → Prop}, (∀ s ∈ store.streams, P s) →
      P { isControl := isControl } →
      ∀ s ∈ store.streams ++ [{ isControl := isControl }], P s := by
    intro P hall hnew s hs
    cases List.mem_append.mp hs with
    | inl hold => exact hall s hold
    | inr hlast => exact List.mem_singleton.mp hlast ▸ hnew
  constructor
  · rw [Totals.total_concat]
    exact haccounted.bytes
  · rw [Totals.total_concat]
    exact haccounted.frames
  · rw [Totals.total_concat]
    exact haccounted.vectors
  · exact hconcat haccounted.retained rfl
  · exact hconcat haccounted.fits (Nat.le_refl _)
  · exact hconcat haccounted.streamBytes (Nat.zero_le _)
  · exact hconcat haccounted.streamFrames (Nat.zero_le _)
  · exact haccounted.totalBytes
  · exact haccounted.totalVectors

/-- No operation fails, and what it does to streams, bytes and vectors is what it does
without checks. -/
theorem accounted_apply (haccounted : Accounted limits store) (op : StreamOp) :
    ∃ after, store.apply limits op = some after ∧ Accounted limits after ∧
      after.egress = applyEgress limits store.egress op := by
  cases op with
  | openStream isControl => exact ⟨_, rfl, accounted_openStream haccounted isControl, rfl⟩
  | write stream applicationData frameLen =>
      exact ⟨_, rfl, accounted_writeParts haccounted stream applicationData frameLen,
        egress_writeParts store stream applicationData frameLen⟩
  | acked stream delta compacts => exact accounted_egressShift haccounted stream delta compacts
  | shut stream =>
      refine ⟨_, rfl, accounted_shut haccounted stream, ?_⟩
      simp only [egress, applyEgress, Egress.shutStream]
      split <;> rfl
  | destroy stream => exact accounted_destroy haccounted stream

theorem accounted_foldlM (haccounted : Accounted limits store) (ops : List StreamOp) :
    ∃ after, ops.foldlM (apply limits) store = some after ∧ Accounted limits after := by
  induction ops generalizing store with
  | nil => exact ⟨store, rfl, haccounted⟩
  | cons op rest ih =>
      obtain ⟨next, hnext, hkept, -⟩ := accounted_apply haccounted op
      obtain ⟨after, hrest, hafter⟩ := ih hkept
      refine ⟨after, ?_, hafter⟩
      rw [List.foldlM_cons, hnext]
      exact hrest

/-- Frames need a vector each. -/
theorem Accounted.egressFrames_le (haccounted : Accounted limits store) :
    store.stats.egressFrames ≤ streamEndpointMaxVectors := by
  have hvectors := haccounted.totalVectors
  rw [haccounted.vectors] at hvectors
  rw [haccounted.frames]
  exact (Totals.total_le_total haccounted.fits).trans hvectors

/-- The reserves can be taken off the limits. -/
structure ReservesFit (limits : ConfiguredLimits) : Prop where
  endpointBytes : streamEndpointControlByteReserve ≤ limits.maxTotalStreamEgressBytes
  streamBytes : streamControlByteReserve ≤ limits.maxStreamEgressBytes
  frames : streamControlFrameReserve ≤
    min (limits.maxStreamEgressBytes / streamMinFrameAccountingBytes) streamEndpointMaxVectors
  vectors : streamEndpointControlVectorReserve ≤ streamEndpointMaxVectors

theorem reservesFit (hlimits : limits.Resolved) : ReservesFit limits := by
  have hstream := hlimits.stream_ge
  have htotal := hlimits.total_ge
  simp only [streamControlByteReserve, streamEndpointControlByteReserve] at hstream htotal
  constructor
  · simp only [streamEndpointControlByteReserve]
    omega
  · simp only [streamControlByteReserve]
    omega
  · simp only [streamControlFrameReserve, streamMinFrameAccountingBytes,
      streamEndpointMaxVectors]
    omega
  · decide

/-- In every run the counters are the sums over the streams, within the limits, and no
subtraction underflows. -/
theorem counters_accounted (hlimits : limits.Resolved) (ops : List StreamOp) :
    ReservesFit limits ∧ ∃ store, run limits ops = some store ∧ Accounted limits store ∧
      store.stats.egressFrames ≤ streamEndpointMaxVectors := by
  obtain ⟨store, hrun, haccounted⟩ := accounted_foldlM (accounted_init limits) ops
  exact ⟨reservesFit hlimits, store, hrun, haccounted, haccounted.egressFrames_le⟩

/-- Of two frames one is acknowledged, then the stream is destroyed. -/
theorem counters_accounted_destroyed :
    ReservesFit Transport.defaultResolved ∧ ∃ store,
      run Transport.defaultResolved [.openStream true, .write 0 true 100, .write 0 false 36,
        .acked 0 100 true, .destroy 0] = some store ∧
      Accounted Transport.defaultResolved store ∧
      store.stats.egressFrames ≤ streamEndpointMaxVectors :=
  counters_accounted Transport.resolved_default _

end StreamStore

end Qlinq
