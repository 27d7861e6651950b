import Qlinq.UdsIngest

namespace Qlinq

/-! The daemon gives a record to each of its transports until the transport
takes it, and consumes it once all have. -/

/-- The transport has the record, or nobody wants it. -/
def PublishResult.taken : PublishResult → Bool
  | .delivered | .buffered | .noRecipients => true
  | .partialDelivery | .backpressure | .invalid | .error => false

def takers (handed : List (Nat × PublishResult)) : List Nat :=
  (handed.filter fun entry => entry.2.taken).map Prod.fst

namespace Daemon

/-- A record on its way: `served` are the transports that took it.  No transport
that took it is handed it again, and it is consumed when all have taken it. -/
def distribute (d : Daemon) (served : List Nat) (offer : UdsOffer) : Option (List Nat) :=
  let handed := offer.answer.handed.map Prod.fst
  let served' := served ++ takers offer.answer.handed
  if handed.Nodup ∧ (∀ i ∈ handed, i ∉ served) ∧
      (offer.answer.result = .accepted →
        ∀ i < d.numTransports, d.present i = true → i ∈ served') then
    some (if offer.answer.result = .retry then served' else [])
  else
    none

/-- The offers of a connection went to the transports in order. -/
def Distributed (d : Daemon) (offers : List UdsOffer) (served : List Nat) : Prop :=
  Replay.replay d.distribute [] offers = some served

/-! ### One offer -/

theorem testBit_or_shiftLeft (progress i j : Nat) :
    (progress ||| 1 <<< i).testBit j = (progress.testBit j || decide (j = i)) := by
  rw [Nat.testBit_or, Nat.testBit_shiftLeft]
  by_cases hle : i ≤ j
  · by_cases hsame : j = i
    · subst hsame
      simp
    · have hpos : j - i ≠ 0 := by omega
      simp [hle, hsame, Nat.testBit_one_eq_true_iff_self_eq_zero, hpos]
  · have hne : j ≠ i := by omega
    simp [hle, hne]

structure FannedOut (d : Daemon) (turns : List Nat) (blocked : Bool) (progress : Nat)
    (before : List (Nat × PublishResult)) (answer : UdsAnswer) : Prop where
  handed : ∃ new, answer.handed = before ++ new ∧ (new.map Prod.fst).Nodup ∧
    (∀ entry ∈ new, entry.1 ∈ turns ∧ progress.testBit entry.1 = false) ∧
    ∀ i, answer.progress.testBit i = (progress.testBit i || decide (i ∈ takers new))
  accepted : answer.result = .accepted → blocked = false ∧
    ∀ i ∈ turns, d.present i = true → answer.progress.testBit i = true

theorem FannedOut.done (d : Daemon) (blocked : Bool) (progress : Nat)
    (before : List (Nat × PublishResult)) :
    FannedOut d [] blocked progress before
      { result := if blocked then .retry else .accepted, progress, handed := before } where
  handed := ⟨[], by simp, by simp, by simp, by simp [takers]⟩
  accepted := by cases blocked <;> simp

/-- A transport that took the record, or is gone, is passed over. -/
theorem FannedOut.skip {d : Daemon} (hskipped : progress.testBit i = true ∨ d.present i = false)
    (hrest : FannedOut d turns blocked progress before answer) :
    FannedOut d (i :: turns) blocked progress before answer where
  handed := by
    obtain ⟨new, hhanded, hnodup, hnew, hbits⟩ := hrest.handed
    exact ⟨new, hhanded, hnodup,
      fun entry hentry => ⟨List.mem_cons_of_mem _ (hnew entry hentry).1, (hnew entry hentry).2⟩,
      hbits⟩
  accepted := by
    intro haccepted
    obtain ⟨hblocked, hall⟩ := hrest.accepted haccepted
    refine ⟨hblocked, List.forall_mem_cons.mpr ⟨fun hpresent => ?_, hall⟩⟩
    obtain ⟨new, -, -, -, hbits⟩ := hrest.handed
    rcases hskipped with htook | hgone
    · rw [hbits, htook, Bool.true_or]
    · simp [hgone] at hpresent

theorem not_mem_handed {new : List (Nat × PublishResult)} {turns : List Nat} (hfresh : i ∉ turns)
    (hnew : ∀ entry ∈ new, entry.1 ∈ turns) : i ∉ new.map Prod.fst := by
  intro hmem
  obtain ⟨entry, hentry, rfl⟩ := List.mem_map.mp hmem
  exact hfresh (hnew entry hentry)

theorem FannedOut.took {d : Daemon} {i : Nat} {result : PublishResult}
    (hfresh : i ∉ turns) (hbit : progress.testBit i = false) (htaken : result.taken = true)
    (hrest : FannedOut d turns blocked (progress ||| 1 <<< i) (before ++ [(i, result)]) answer) :
    FannedOut d (i :: turns) blocked progress before answer := by
  obtain ⟨new, hhanded, hnodup, hnew, hbits⟩ := hrest.handed
  have htakers : takers ((i, result) :: new) = i :: takers new := by simp [takers, htaken]
  have hprogress : ∀ j, answer.progress.testBit j =
      (progress.testBit j || decide (j ∈ takers ((i, result) :: new))) := by
    intro j
    rw [hbits, testBit_or_shiftLeft, htakers, Bool.or_assoc]
    simp
  refine ⟨⟨(i, result) :: new, ?_, ?_, ?_, hprogress⟩, fun haccepted => ?_⟩
  · rw [hhanded, List.append_assoc]
    rfl
  · exact List.nodup_cons.mpr
      ⟨not_mem_handed hfresh fun entry hentry => (hnew entry hentry).1, hnodup⟩
  · refine List.forall_mem_cons.mpr ⟨⟨List.mem_cons_self, hbit⟩, fun entry hentry => ?_⟩
    obtain ⟨hturn, hclear⟩ := hnew entry hentry
    rw [testBit_or_shiftLeft, Bool.or_eq_false_iff] at hclear
    exact ⟨List.mem_cons_of_mem _ hturn, hclear.1⟩
  · obtain ⟨hblocked, hall⟩ := hrest.accepted haccepted
    refine ⟨hblocked, List.forall_mem_cons.mpr ⟨fun _ => ?_, hall⟩⟩
    rw [hprogress, htakers]
    simp

theorem FannedOut.blocked {d : Daemon} {i : Nat} {answer : UdsAnswer}
    (hfresh : i ∉ turns) (hbit : progress.testBit i = false)
    (hrest : FannedOut d turns true progress (before ++ [(i, .backpressure)]) answer)
    (blocked : Bool) : FannedOut d (i :: turns) blocked progress before answer := by
  obtain ⟨new, hhanded, hnodup, hnew, hbits⟩ := hrest.handed
  refine ⟨⟨(i, .backpressure) :: new, ?_, ?_, ?_, ?_⟩, fun haccepted => ?_⟩
  · rw [hhanded, List.append_assoc]
    rfl
  · exact List.nodup_cons.mpr
      ⟨not_mem_handed hfresh fun entry hentry => (hnew entry hentry).1, hnodup⟩
  · exact List.forall_mem_cons.mpr ⟨⟨List.mem_cons_self, hbit⟩,
      fun entry hentry => ⟨List.mem_cons_of_mem _ (hnew entry hentry).1, (hnew entry hentry).2⟩⟩
  · have htakers : takers ((i, .backpressure) :: new) = takers new := by
      rw [takers, List.filter_cons_of_neg (by simp [PublishResult.taken])]
      rfl
    rw [htakers]
    exact hbits
  · exact absurd (hrest.accepted haccepted).1 (by simp)

theorem FannedOut.fatal {d : Daemon} {i : Nat} {result : PublishResult}
    (hbit : progress.testBit i = false) (htaken : result.taken = false) (turns : List Nat)
    (blocked : Bool) (before : List (Nat × PublishResult)) :
    FannedOut d (i :: turns) blocked progress before
      { result := .fatal, progress, handed := before ++ [(i, result)] } where
  handed := ⟨[(i, result)], rfl, by simp, by simp [hbit], by simp [takers, htaken]⟩
  accepted := by simp

theorem fannedOut_fanOut (d : Daemon) (publish : Nat → PublishResult) {turns : List Nat}
    (hturns : turns.Nodup) (blocked : Bool) (progress : Nat)
    (before : List (Nat × PublishResult)) :
    FannedOut d turns blocked progress before
      (d.fanOut publish turns blocked progress before) := by
  induction turns generalizing blocked progress before with
  | nil => exact .done d blocked progress before
  | cons i turns ih =>
      obtain ⟨hfresh, hrest⟩ := List.nodup_cons.mp hturns
      rw [fanOut]
      split
      · next hskipped => exact .skip hskipped (ih hrest blocked progress before)
      · next hhands =>
        have hbit : progress.testBit i = false := by
          simpa using fun h => hhands (.inl h)
        cases hresult : publish i with
        | delivered => exact .took hfresh hbit rfl (ih hrest blocked _ _)
        | buffered => exact .took hfresh hbit rfl (ih hrest blocked _ _)
        | noRecipients => exact .took hfresh hbit rfl (ih hrest blocked _ _)
        | backpressure => exact .blocked hfresh hbit (ih hrest true progress _) blocked
        | partialDelivery => exact .fatal hbit rfl turns blocked before
        | invalid => exact .fatal hbit rfl turns blocked before
        | error => exact .fatal hbit rfl turns blocked before

/-- The progress bits are the transports that took the record. -/
theorem distribute_onDataPacket (d : Daemon) (publish : UdsRecord → Nat → PublishResult)
    (record : UdsRecord) {progress : Nat} {served : List Nat}
    (hbits : ∀ i, progress.testBit i = decide (i ∈ served)) :
    let answer := d.onDataPacket publish record progress
    ∃ served', d.distribute served ⟨record, progress, answer⟩ =
        some (if answer.result = .retry then served' else []) ∧
      ∀ i, answer.progress.testBit i = decide (i ∈ served') := by
  intro answer
  have hfanned : FannedOut d (List.range d.numTransports) false progress [] answer :=
    fannedOut_fanOut d (publish record) List.nodup_range false progress []
  obtain ⟨new, hhanded, hnodup, hnew, hprogress⟩ := hfanned.handed
  rw [List.nil_append] at hhanded
  have hserved : ∀ i, answer.progress.testBit i =
      decide (i ∈ served ++ takers answer.handed) := by
    intro i
    rw [hprogress, hbits, hhanded]
    simp
  refine ⟨served ++ takers answer.handed, ?_, hserved⟩
  unfold distribute
  simp only
  rw [if_pos]
  refine ⟨hhanded ▸ hnodup, ?_, ?_⟩
  · intro i hi hmem
    rw [hhanded] at hi
    obtain ⟨entry, hentry, rfl⟩ := List.mem_map.mp hi
    have hclear := (hnew entry hentry).2
    rw [hbits] at hclear
    exact of_decide_eq_false hclear hmem
  · intro haccepted i hi hpresent
    have hset := (hfanned.accepted haccepted).2 i (List.mem_range.mpr hi) hpresent
    rw [hserved] at hset
    exact of_decide_eq_true hset

end Daemon

end Qlinq
