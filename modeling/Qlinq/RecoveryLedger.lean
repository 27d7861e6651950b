import Qlinq.Recovery

namespace Qlinq

/-! What a receiver's recovery windows say about the objects delivered. -/

namespace RecoveryWindow

structure Spans (window other : RecoveryWindow) : Prop where
  group_eq : window.groupId = other.groupId
  first_eq : window.firstObjectId = other.firstObjectId
  final_eq : window.finalObjectId = other.finalObjectId

/-- Every object of the window was delivered, `delivered` by group and id. -/
def AllIn (delivered : Nat → Nat → Prop) (window : RecoveryWindow) : Prop :=
  ∀ objectId, window.covers objectId → delivered window.groupId objectId

theorem Spans.allIn {window other : RecoveryWindow} (hspans : Spans window other)
    (hall : window.AllIn delivered) : other.AllIn delivered := by
  intro objectId hcovers
  unfold covers at hcovers
  rw [← hspans.first_eq, ← hspans.final_eq] at hcovers
  rw [← hspans.group_eq]
  exact hall objectId hcovers

/-- Of two windows of an ordered list one lies behind the other. -/
theorem apart_of_mem {windows : List RecoveryWindow}
    (hordered : windows.Pairwise fun earlier later =>
      earlier.finalObjectId < later.firstObjectId)
    (hleft : left ∈ windows) (hright : right ∈ windows) :
    left = right ∨ left.finalObjectId < right.firstObjectId ∨
      right.finalObjectId < left.firstObjectId := by
  induction hordered with
  | nil => simp at hleft
  | cons hhead _ ih =>
      cases List.mem_cons.mp hleft with
      | inl hfirst =>
          cases List.mem_cons.mp hright with
          | inl hsame => exact Or.inl (hfirst.trans hsame.symm)
          | inr hlater => exact Or.inr (Or.inl (hfirst ▸ hhead right hlater))
      | inr hleft =>
          cases List.mem_cons.mp hright with
          | inl hfirst => exact Or.inr (Or.inr (hfirst ▸ hhead left hleft))
          | inr hright => exact ih hleft hright

/-- The window without one missing object. -/
def cleared (window : RecoveryWindow) (groupId objectId : Nat) : RecoveryWindow :=
  if window.groupId = groupId ∧ window.covers objectId then
    { window with
      missingMask := window.missingMask &&&
        ~~~(1#32 <<< (objectId - window.firstObjectId)) }
  else
    window

theorem spans_cleared (window : RecoveryWindow) (groupId objectId : Nat) :
    (window.cleared groupId objectId).Spans window := by
  unfold cleared
  split <;> exact ⟨rfl, rfl, rfl⟩

theorem getLsbD_cleared {window : RecoveryWindow} {id groupId objectId : Nat}
    (hcovers : window.covers id)
    (hshort : window.finalObjectId - window.firstObjectId < recoveryWindowObjects)
    (hbit : (window.cleared groupId objectId).missingMask.getLsbD
      (id - window.firstObjectId) = false) :
    window.missingMask.getLsbD (id - window.firstObjectId) = false ∨
      (window.groupId = groupId ∧ id = objectId) := by
  obtain ⟨hfirst, hfinal⟩ := hcovers
  unfold cleared at hbit
  split at hbit
  · next hhere =>
      obtain ⟨hgroup, hobject, _⟩ := hhere
      by_cases hsame : id = objectId
      · exact Or.inr ⟨hgroup, hsame⟩
      left
      have hinside : id - window.firstObjectId < 32 := by
        simp only [recoveryWindowObjects] at hshort
        omega
      have hother : (1#32 <<< (objectId - window.firstObjectId)).getLsbD
          (id - window.firstObjectId) = false := by
        simp only [BitVec.getLsbD_shiftLeft, BitVec.getLsbD_one]
        by_cases hbelow : id - window.firstObjectId < objectId - window.firstObjectId
        · simp [hbelow]
        · have : id - window.firstObjectId - (objectId - window.firstObjectId) ≠ 0 := by omega
          simp [this]
      rw [BitVec.getLsbD_and, BitVec.getLsbD_not, hother] at hbit
      simpa only [hinside, decide_true, Bool.not_false, Bool.and_true] using hbit
  · exact Or.inl hbit

end RecoveryWindow

namespace ObjectGapState

theorem earliest_spec (hearliest : earliest windows = some first) :
    first ∈ windows ∧ ∀ window ∈ windows, first.firstObjectId ≤ window.firstObjectId := by
  induction windows generalizing first with
  | nil => simp [earliest] at hearliest
  | cons window rest ih =>
      simp only [earliest] at hearliest
      cases hrest : earliest rest with
      | none =>
          simp only [hrest, Option.some.injEq] at hearliest
          subst hearliest
          cases rest with
          | nil => simp
          | cons other rest =>
              simp only [earliest] at hrest
              split at hrest
              · simp at hrest
              · split at hrest <;> simp at hrest
      | some other =>
          obtain ⟨hmem, hleast⟩ := ih hrest
          simp only [hrest] at hearliest
          split at hearliest
          · next hlater =>
              obtain rfl := Option.some.inj hearliest
              refine ⟨List.mem_cons_of_mem _ hmem, fun candidate hcandidate => ?_⟩
              cases List.mem_cons.mp hcandidate with
              | inl hhere => rw [hhere]; omega
              | inr hthere => exact hleast candidate hthere
          · next hfirst =>
              obtain rfl := Option.some.inj hearliest
              refine ⟨List.mem_cons_self, fun candidate hcandidate => ?_⟩
              cases List.mem_cons.mp hcandidate with
              | inl hhere => rw [hhere]
              | inr hthere =>
                  have := hleast candidate hthere
                  omega

theorem announcedThrough_iff {gap : ObjectGapState} :
    gap.announcedThrough objectId = true ↔
      ∃ last, gap.lastCheckpointObjectId = some last ∧ objectId ≤ last := by
  unfold announcedThrough
  cases gap.lastCheckpointObjectId <;> simp

/-- Bit `bit` of a new window's mask stands for an object that is not remembered as
delivered. -/
theorem getLsbD_missingObjects (state : ObjectGapState) (firstObjectId count bit : Nat)
    (hbit : bit < 32) :
    (state.missingObjects firstObjectId count).getLsbD bit =
      (decide (bit < count) && !state.objectIsRecentlyDelivered (firstObjectId + bit)) := by
  unfold missingObjects
  induction count with
  | zero => simp
  | succ count ih =>
      rw [List.range_succ, List.foldl_append, List.foldl_cons, List.foldl_nil]
      by_cases hlast : bit = count
      · subst hlast
        cases hrecent : state.objectIsRecentlyDelivered (firstObjectId + bit) with
        | true =>
            simp only [if_true, ih]
            simp
        | false => simp [hbit]
      · have hcount : decide (bit < count + 1) = decide (bit < count) := by
          simp only [decide_eq_decide]
          omega
        have hone : (1#32 <<< count).getLsbD bit = false := by
          simp only [BitVec.getLsbD_shiftLeft, BitVec.getLsbD_one]
          by_cases hbelow : bit < count
          · simp [hbelow]
          · have : bit - count ≠ 0 := by omega
            simp [this]
        rw [hcount, ← ih]
        split
        · rfl
        · rw [BitVec.getLsbD_or, hone, Bool.or_false]

/-- The account a subscription keeps: `accepted` windows, the objects `acks` reach and
the ones still missing. -/
structure Accounts (delivered : Nat → Nat → Prop) (accepted : List RecoveryWindow)
    (acks : List Watermark) (gap : ObjectGapState) : Prop where
  ordered : gap.recoveryWindows.Pairwise fun earlier later =>
    earlier.finalObjectId < later.firstObjectId
  spans : ∀ window ∈ gap.recoveryWindows, window.firstObjectId ≤ window.finalObjectId ∧
    window.finalObjectId - window.firstObjectId < recoveryWindowObjects
  announced : ∀ window ∈ gap.recoveryWindows,
    gap.announcedThrough window.finalObjectId = true
  missing : ∀ window ∈ gap.recoveryWindows, ∀ objectId, window.covers objectId →
    window.missingMask.getLsbD (objectId - window.firstObjectId) = false →
    delivered window.groupId objectId
  settled : ∀ window ∈ accepted, gap.announcedThrough window.finalObjectId = true ∧
    ((∃ active ∈ gap.recoveryWindows, active.Spans window) ∨ window.AllIn delivered)
  acked : ∀ ack ∈ acks, gap.announcedThrough ack.objectId = true

/-- An ACK up to `objectId` would reach complete windows of the group only. -/
def Ready (gap : ObjectGapState) (groupId objectId : Nat) : Prop :=
  ∀ window ∈ gap.recoveryWindows, window.groupId = groupId →
    window.firstObjectId ≤ objectId → window.complete = true

instance (gap : ObjectGapState) (groupId objectId : Nat) :
    Decidable (gap.Ready groupId objectId) := by
  unfold Ready
  infer_instance

theorem accounts_initial (delivered : Nat → Nat → Prop) : Accounts delivered [] [] {} where
  ordered := List.Pairwise.nil
  spans := by simp
  announced := by simp
  missing := by simp
  settled := by simp
  acked := by simp

namespace Accounts

theorem congr {gap gap' : ObjectGapState} (haccounts : gap.Accounts delivered accepted acks)
    (hwindows : gap'.recoveryWindows = gap.recoveryWindows)
    (hlast : gap'.lastCheckpointObjectId = gap.lastCheckpointObjectId) :
    gap'.Accounts delivered accepted acks := by
  have hannounced : gap'.announcedThrough = gap.announcedThrough := by
    funext objectId
    unfold announcedThrough
    rw [hlast]
  refine ⟨?_, ?_, ?_, ?_, ?_, ?_⟩
  · rw [hwindows]
    exact haccounts.ordered
  · rw [hwindows]
    exact haccounts.spans
  · rw [hwindows, hannounced]
    exact haccounts.announced
  · rw [hwindows]
    exact haccounts.missing
  · rw [hwindows, hannounced]
    exact haccounts.settled
  · rw [hannounced]
    exact haccounts.acked

theorem mono {gap : ObjectGapState} (haccounts : gap.Accounts delivered accepted acks)
    (hmore : ∀ groupId objectId, delivered groupId objectId → more groupId objectId) :
    gap.Accounts more accepted acks where
  ordered := haccounts.ordered
  spans := haccounts.spans
  announced := haccounts.announced
  missing window hmem objectId hcovers hbit :=
    hmore _ _ (haccounts.missing window hmem objectId hcovers hbit)
  settled window hmem := by
    refine ⟨(haccounts.settled window hmem).1, ?_⟩
    cases (haccounts.settled window hmem).2 with
    | inl hactive => exact Or.inl hactive
    | inr hdone => exact Or.inr fun objectId hcovers => hmore _ _ (hdone objectId hcovers)
  acked := haccounts.acked

theorem delivered_of_complete {gap : ObjectGapState}
    (haccounts : gap.Accounts delivered accepted acks) (hmem : window ∈ gap.recoveryWindows)
    (hcomplete : window.complete = true) : window.AllIn delivered := by
  intro objectId hcovers
  apply haccounts.missing window hmem objectId hcovers
  have hmask : window.missingMask = 0 := by simpa [RecoveryWindow.complete] using hcomplete
  rw [hmask]
  exact BitVec.getLsbD_zero

/-- What an ACK covers when it is ready to be sent. -/
theorem delivered_of_ready {gap : ObjectGapState}
    (haccounts : gap.Accounts delivered accepted acks) {groupId objectId : Nat}
    (hready : gap.Ready groupId objectId) (hmem : window ∈ accepted) (hgroup : window.groupId = groupId)
    (hfirst : window.firstObjectId ≤ objectId) : window.AllIn delivered := by
  cases (haccounts.settled window hmem).2 with
  | inl hactive =>
      obtain ⟨active, hactive, hspans⟩ := hactive
      refine hspans.allIn (haccounts.delivered_of_complete hactive ?_)
      apply hready active hactive (hspans.group_eq.trans hgroup)
      rw [hspans.first_eq]
      exact hfirst
  | inr hdone => exact hdone

theorem ack {gap : ObjectGapState} (haccounts : gap.Accounts delivered accepted acks)
    (hannounced : gap.announcedThrough sent.objectId = true) :
    gap.Accounts delivered accepted (acks ++ [sent]) := by
  refine ⟨haccounts.ordered, haccounts.spans, haccounts.announced, haccounts.missing,
    haccounts.settled, fun other hother => ?_⟩
  cases List.mem_append.mp hother with
  | inl hold => exact haccounts.acked other hold
  | inr hnew =>
      obtain rfl := List.mem_singleton.mp hnew
      exact hannounced

/-- The ACK for a completed window and its successors is ready. -/
theorem ready_completedThrough {gap : ObjectGapState}
    (haccounts : gap.Accounts delivered accepted acks) (groupId fuel : Nat)
    (hready : gap.Ready groupId finalObjectId)
    (hannounced : gap.announcedThrough finalObjectId = true) :
    gap.Ready groupId (completedThrough gap.recoveryWindows groupId fuel finalObjectId) ∧
      gap.announcedThrough
        (completedThrough gap.recoveryWindows groupId fuel finalObjectId) = true := by
  induction fuel generalizing finalObjectId with
  | zero => exact ⟨hready, hannounced⟩
  | succ fuel ih =>
      unfold completedThrough
      split
      · exact ⟨hready, hannounced⟩
      next next hearliest =>
      split
      · next hnext =>
          obtain ⟨hmem, hleast⟩ := earliest_spec hearliest
          obtain ⟨hmem, hbehind⟩ := List.mem_filter.mp hmem
          have hcomplete : next.complete = true := by
            simp only [Bool.and_eq_true] at hnext
            exact hnext.1
          refine ih ?_ (haccounts.announced next hmem)
          intro window hwindow hgroup hfirst
          by_cases hold : window.firstObjectId ≤ finalObjectId
          · exact hready window hwindow hgroup hold
          have hlater := hleast window (List.mem_filter.mpr ⟨hwindow, by simpa using hold⟩)
          have hspan := (haccounts.spans window hwindow).1
          rcases RecoveryWindow.apart_of_mem haccounts.ordered hwindow hmem with
            rfl | hbefore | hafter
          · exact hcomplete
          · omega
          · omega
      · exact ⟨hready, hannounced⟩

theorem ready_earliest {gap : ObjectGapState}
    (haccounts : gap.Accounts delivered accepted acks)
    (hearliest : earliest gap.recoveryWindows = some first)
    (hcomplete : first.complete = true) (groupId : Nat) :
    gap.Ready groupId first.finalObjectId := by
  obtain ⟨hmem, hleast⟩ := earliest_spec hearliest
  intro window hwindow _ hfirst
  have hlater := hleast window hwindow
  have hspan := (haccounts.spans window hwindow).1
  rcases RecoveryWindow.apart_of_mem haccounts.ordered hwindow hmem with rfl | hbefore | hafter
  · exact hcomplete
  · omega
  · omega

theorem dropWindowsThrough {gap : ObjectGapState} {groupId finalObjectId : Nat}
    (haccounts : gap.Accounts delivered accepted acks)
    (hready : gap.Ready groupId finalObjectId) :
    (gap.dropWindowsThrough groupId finalObjectId).Accounts delivered accepted acks := by
  have hkept : ∀ window, window ∈
      (gap.dropWindowsThrough groupId finalObjectId).recoveryWindows →
      window ∈ gap.recoveryWindows := fun _ h => List.mem_of_mem_filter h
  refine ⟨haccounts.ordered.filter _, fun window h => haccounts.spans window (hkept window h),
    fun window h => haccounts.announced window (hkept window h),
    fun window h => haccounts.missing window (hkept window h),
    fun window hmem => ⟨(haccounts.settled window hmem).1, ?_⟩, haccounts.acked⟩
  cases (haccounts.settled window hmem).2 with
  | inr hdone => exact Or.inr hdone
  | inl hactive =>
      obtain ⟨active, hactive, hspans⟩ := hactive
      by_cases hdropped : active.groupId = groupId ∧ active.finalObjectId ≤ finalObjectId
      · right
        have hspan := (haccounts.spans active hactive).1
        exact hspans.allIn (haccounts.delivered_of_complete hactive
          (hready active hactive hdropped.1 (by omega)))
      · refine Or.inl ⟨active, List.mem_filter.mpr ⟨hactive, ?_⟩, hspans⟩
        simpa [imp_iff_not_or] using hdropped

/-- A delivered object is missing nowhere in its group. -/
theorem clearMissing {gap : ObjectGapState}
    (haccounts : gap.Accounts delivered accepted acks) (groupId objectId : Nat) :
    (gap.clearMissing groupId objectId).Accounts
      (fun group id => delivered group id ∨ (group = groupId ∧ id = objectId))
      accepted acks := by
  have hspans := fun window => RecoveryWindow.spans_cleared window groupId objectId
  have hmore : gap.Accounts
      (fun group id => delivered group id ∨ (group = groupId ∧ id = objectId))
      accepted acks := haccounts.mono fun _ _ h => Or.inl h
  have hwindows : (gap.clearMissing groupId objectId).recoveryWindows =
      gap.recoveryWindows.map (·.cleared groupId objectId) := rfl
  refine ⟨?_, ?_, ?_, ?_, ?_, hmore.acked⟩
  · rw [hwindows, List.pairwise_map]
    refine hmore.ordered.imp fun {left right} h => ?_
    rw [(hspans left).final_eq, (hspans right).first_eq]
    exact h
  · intro window hmem
    rw [hwindows] at hmem
    obtain ⟨old, hold, rfl⟩ := List.mem_map.mp hmem
    rw [(hspans old).first_eq, (hspans old).final_eq]
    exact hmore.spans old hold
  · intro window hmem
    rw [hwindows] at hmem
    obtain ⟨old, hold, rfl⟩ := List.mem_map.mp hmem
    rw [(hspans old).final_eq]
    exact hmore.announced old hold
  · intro window hmem id hcovers hbit
    rw [hwindows] at hmem
    obtain ⟨old, hold, rfl⟩ := List.mem_map.mp hmem
    unfold RecoveryWindow.covers at hcovers
    rw [(hspans old).first_eq, (hspans old).final_eq] at hcovers
    rw [(hspans old).first_eq] at hbit
    rw [(hspans old).group_eq]
    cases RecoveryWindow.getLsbD_cleared hcovers (hmore.spans old hold).2 hbit with
    | inl hclear => exact hmore.missing old hold id hcovers hclear
    | inr hhere => exact Or.inr hhere
  · intro window hmem
    refine ⟨(hmore.settled window hmem).1, ?_⟩
    cases (hmore.settled window hmem).2 with
    | inr hdone => exact Or.inr hdone
    | inl hactive =>
        obtain ⟨active, hactive, hspan⟩ := hactive
        have hsame := hspans active
        exact Or.inl ⟨_, List.mem_map_of_mem hactive, hsame.group_eq.trans hspan.group_eq,
          hsame.first_eq.trans hspan.first_eq, hsame.final_eq.trans hspan.final_eq⟩

/-- A baseline that does not regress moves the announced end only. -/
theorem baseline {gap : ObjectGapState} (haccounts : gap.Accounts delivered accepted acks)
    (hregresses : gap.regresses finalObjectId = false) :
    { gap with lastCheckpointObjectId := some finalObjectId }.Accounts delivered accepted
      acks := by
  have hannounced : ∀ objectId, gap.announcedThrough objectId = true →
      { gap with lastCheckpointObjectId := some finalObjectId }.announcedThrough objectId =
        true := by
    intro objectId h
    obtain ⟨last, hlast, hle⟩ := announcedThrough_iff.mp h
    refine announcedThrough_iff.mpr ⟨finalObjectId, rfl, hle.trans ?_⟩
    simpa [regresses, hlast] using hregresses
  exact ⟨haccounts.ordered, haccounts.spans,
    fun window h => hannounced _ (haccounts.announced window h), haccounts.missing,
    fun window h => ⟨hannounced _ (haccounts.settled window h).1,
      (haccounts.settled window h).2⟩,
    fun ack h => hannounced _ (haccounts.acked ack h)⟩

/-- A window behind everything announced is accepted: tracked, or done already. -/
theorem accept {gap : ObjectGapState} (haccounts : gap.Accounts delivered accepted acks)
    (window : RecoveryWindow)
    (hnew : gap.announcedThrough window.finalObjectId = false)
    (hnext : gap.discontinuous window.firstObjectId = false)
    (hspan : window.firstObjectId ≤ window.finalObjectId ∧
      window.finalObjectId - window.firstObjectId < recoveryWindowObjects)
    (hmissing : ∀ objectId, window.covers objectId →
      window.missingMask.getLsbD (objectId - window.firstObjectId) = false →
      delivered window.groupId objectId) :
    { gap with
      lastCheckpointObjectId := some window.finalObjectId
      recoveryWindows := gap.recoveryWindows ++ [window] }.Accounts delivered
        (accepted ++ [window]) acks ∧
    (window.complete = true →
      { gap with lastCheckpointObjectId := some window.finalObjectId }.Accounts delivered
        (accepted ++ [window]) acks) ∧
    ∀ ack ∈ acks, ack.objectId < window.firstObjectId := by
  have hlast : ∀ objectId, gap.announcedThrough objectId = true →
      objectId < window.firstObjectId := by
    intro objectId h
    obtain ⟨last, hsome, hle⟩ := announcedThrough_iff.mp h
    have hcontinues : ¬ last = uint64Max ∧ window.firstObjectId = last + 1 := by
      simpa [discontinuous, hsome] using hnext
    omega
  have hannounced : ∀ windows objectId, gap.announcedThrough objectId = true →
      { gap with
        lastCheckpointObjectId := some window.finalObjectId
        recoveryWindows := windows }.announcedThrough objectId = true := by
    intro windows objectId h
    have := hlast objectId h
    exact announcedThrough_iff.mpr ⟨window.finalObjectId, rfl, by omega⟩
  have hhere : ∀ windows, { gap with
      lastCheckpointObjectId := some window.finalObjectId
      recoveryWindows := windows }.announcedThrough window.finalObjectId = true := by
    intro windows
    exact announcedThrough_iff.mpr ⟨_, rfl, le_refl _⟩
  refine ⟨⟨?_, ?_, ?_, ?_, ?_, ?_⟩, fun hcomplete => ⟨haccounts.ordered, haccounts.spans,
    fun other h => hannounced _ _ (haccounts.announced other h), haccounts.missing, ?_,
    fun ack h => hannounced _ _ (haccounts.acked ack h)⟩,
    fun ack h => hlast _ (haccounts.acked ack h)⟩
  · rw [List.pairwise_append]
    refine ⟨haccounts.ordered, List.pairwise_singleton _ _, fun other hother new hmem => ?_⟩
    obtain rfl := List.mem_singleton.mp hmem
    exact hlast _ (haccounts.announced other hother)
  · intro other hmem
    cases List.mem_append.mp hmem with
    | inl hold => exact haccounts.spans other hold
    | inr hmem => rw [List.mem_singleton.mp hmem]; exact hspan
  · intro other hmem
    cases List.mem_append.mp hmem with
    | inl hold => exact hannounced _ _ (haccounts.announced other hold)
    | inr hmem => rw [List.mem_singleton.mp hmem]; exact hhere _
  · intro other hmem
    cases List.mem_append.mp hmem with
    | inl hold => exact haccounts.missing other hold
    | inr hmem => rw [List.mem_singleton.mp hmem]; exact hmissing
  · intro other hmem
    cases List.mem_append.mp hmem with
    | inl hold =>
        refine ⟨hannounced _ _ (haccounts.settled other hold).1, ?_⟩
        cases (haccounts.settled other hold).2 with
        | inr hdone => exact Or.inr hdone
        | inl hactive =>
            obtain ⟨active, hactive, hspans⟩ := hactive
            exact Or.inl ⟨active, List.mem_append_left _ hactive, hspans⟩
    | inr hmem =>
        obtain rfl := List.mem_singleton.mp hmem
        exact ⟨hhere _, Or.inl ⟨other, List.mem_append_right _ hmem, rfl, rfl, rfl⟩⟩
  · exact fun ack h => hannounced _ _ (haccounts.acked ack h)
  · intro other hmem
    cases List.mem_append.mp hmem with
    | inl hold =>
        exact ⟨hannounced _ _ (haccounts.settled other hold).1,
          (haccounts.settled other hold).2⟩
    | inr hmem =>
        obtain rfl := List.mem_singleton.mp hmem
        refine ⟨hhere _, Or.inr fun objectId hcovers => hmissing objectId hcovers ?_⟩
        have hmask : other.missingMask = 0 := by
          simpa [RecoveryWindow.complete] using hcomplete
        rw [hmask]
        exact BitVec.getLsbD_zero

end Accounts

end ObjectGapState

end Qlinq
