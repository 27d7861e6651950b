import Qlinq.AssemblerReception

namespace Qlinq

/-! What one datagram does to the assemblers of its connection. -/

namespace AssemblerStore

theorem Sound.releaseAll {store : AssemblerStore} (hsound : Sound maxAssemblers store)
    {indices : List Nat} (hinside : ∀ index ∈ indices, index < hardMaxAssemblers) :
    Sound maxAssemblers (store.releaseAll indices) ∧
      SameAccount store.memory (store.releaseAll indices).memory ∧
      ∀ other, (store.releaseAll indices).pool.slot other =
        if other ∈ indices then {} else store.pool.slot other := by
  induction indices generalizing store with
  | nil => exact ⟨hsound, .refl _, fun other => (if_neg List.not_mem_nil).symm⟩
  | cons index rest ih =>
      obtain ⟨hindex, hrest⟩ := List.forall_mem_cons.mp hinside
      obtain ⟨hreleased, haccount, hslots⟩ := ih (hsound.releaseAssembler hindex) hrest
      have hfirst : SameAccount store.memory (store.releaseAssembler index).memory := ⟨rfl, rfl⟩
      refine ⟨hreleased, hfirst.trans haccount, fun other => ?_⟩
      refine (hslots other).trans ?_
      rw [slot_releaseAssembler hsound.indexed hindex]
      by_cases hother : other = index
      · simp [hother]
      · simp [hother]

end AssemblerStore

namespace AssemblerStore.Enlarged

variable {slot enlarged : AssemblerSlot}

theorem live (henlarged : Enlarged slot enlarged total) (hlive : slot.live = true) :
    enlarged.live = true := by
  rcases henlarged with ⟨-, rfl⟩ | ⟨grown, size, hlarger, -, rfl⟩
  · exact hlive
  · exact decide_eq_true (Nat.lt_of_le_of_lt (Nat.zero_le _) hlarger)

theorem received_eq (henlarged : Enlarged slot enlarged total) (index : Nat) :
    enlarged.received index = slot.received index := by
  rcases henlarged with ⟨-, rfl⟩ | ⟨grown, size, -, hgrows, rfl⟩
  · rfl
  · exact hgrows.received_eq index

theorem symbolSize_eq (henlarged : Enlarged slot enlarged total) :
    enlarged.symbolSize = slot.symbolSize := by
  rcases henlarged with ⟨-, rfl⟩ | ⟨grown, size, -, hgrows, rfl⟩
  · rfl
  · rcases hgrows.kept with rfl | ⟨_, _, rfl⟩ <;> rfl

theorem lastActivity_eq (henlarged : Enlarged slot enlarged total) :
    enlarged.lastActivity = slot.lastActivity := by
  rcases henlarged with ⟨-, rfl⟩ | ⟨grown, size, -, hgrows, rfl⟩
  · rfl
  · rcases hgrows.kept with rfl | ⟨_, _, rfl⟩ <;> rfl

theorem symbol_eq (henlarged : Enlarged slot enlarged total) (hindex : index < slot.totalSymbols) :
    enlarged.symbol index = slot.symbol index := by
  rcases henlarged with ⟨-, rfl⟩ | ⟨grown, size, -, hgrows, rfl⟩
  · rfl
  · exact hgrows.symbol_eq index hindex

end AssemblerStore.Enlarged

namespace ReceptionEnv

/-- The slots that the application releases when an object is handed out. -/
def atDelivery (env : ReceptionEnv) : List Nat := env.deliveryReleases.map Fin.val

theorem lt_of_mem_map {indices : List (Fin hardMaxAssemblers)} :
    ∀ index ∈ indices.map Fin.val, index < hardMaxAssemblers := by
  intro index hindex
  obtain ⟨slot, -, rfl⟩ := List.mem_map.mp hindex
  exact slot.isLt

end ReceptionEnv

namespace Reception

open AssemblerStore (SameAccount)

/-- The assemblers are sound and the ring of completed objects is. -/
structure Well (limits : AssemblerLimits) (s : Reception) : Prop where
  store : s.store.Sound limits.maxAssemblers
  chained : s.receiver.completed.Chained

/-- A step that leaves every slot but one alone, or blank where it was released, and starts
no object. -/
structure Continues (released : List Nat) (index : Nat) (s s' : Reception) : Prop where
  account : SameAccount s.memory s'.memory
  window : s'.receiver.window = s.receiver.window
  kept : ∀ other, other ≠ index → other ∉ released → s'.slot other = s.slot other
  live : ∀ other, (s'.slot other).live = true → (s.slot other).live = true

/-- Nor does it renew the activity of any slot. -/
structure Rests (released : List Nat) (index : Nat) (s s' : Reception) : Prop
    extends Continues released index s s' where
  activity : ∀ other, (s'.slot other).live = true →
    (s'.slot other).lastActivity = (s.slot other).lastActivity

section Steps

variable {limits : AssemblerLimits} {env : ReceptionEnv} {released : List Nat} {index : Nat}
  {s s' s'' : Reception}

theorem Continues.trans (hfirst : Continues released index s s')
    (hsecond : Continues released index s' s'') : Continues released index s s'' where
  account := hfirst.account.trans hsecond.account
  window := hsecond.window.trans hfirst.window
  kept other hother hkept :=
    (hsecond.kept other hother hkept).trans (hfirst.kept other hother hkept)
  live other hlive := hfirst.live other (hsecond.live other hlive)

theorem Rests.refl (released : List Nat) (index : Nat) (s : Reception) : Rests released index s s where
  account := .refl _
  window := rfl
  kept _ _ _ := rfl
  live _ h := h
  activity _ _ := rfl

theorem Rests.trans (hfirst : Rests released index s s') (hsecond : Rests released index s' s'') :
    Rests released index s s'' where
  toContinues := hfirst.toContinues.trans hsecond.toContinues
  activity other hlive := (hsecond.activity other hlive).trans
    (hfirst.activity other (hsecond.live other hlive))

theorem rests_releaseAll (hwell : s.Well limits) {indices : List Nat}
    (hinside : ∀ slot ∈ indices, slot < hardMaxAssemblers)
    (hallowed : ∀ slot ∈ indices, slot = index ∨ slot ∈ released) :
    (s.releaseAll indices).Well limits ∧ Rests released index s (s.releaseAll indices) := by
  obtain ⟨hsound, haccount, hslots⟩ := hwell.store.releaseAll hinside
  have hslot : ∀ other, (s.releaseAll indices).slot other =
      if other ∈ indices then {} else s.slot other := hslots
  refine ⟨⟨hsound, hwell.chained⟩, ⟨haccount, rfl, fun other hother hkept => ?_,
    fun other hlive => ?_⟩, fun other hlive => ?_⟩
  · rw [hslot, if_neg fun hmem => (hallowed other hmem).elim hother hkept]
  · rw [hslot] at hlive
    split at hlive
    · cases hlive
    · exact hlive
  · rw [hslot] at hlive ⊢
    split at hlive
    · cases hlive
    · next hkept => rw [if_neg hkept]

theorem rests_completeObject (hwell : s.Well limits) (hindex : index < hardMaxAssemblers)
    (header : FecHeader) :
    (s.completeObject env header index).Well limits ∧
      Rests env.atDelivery index s (s.completeObject env header index) := by
  unfold completeObject
  extract_lets noted
  have hnoted : noted.Well limits := ⟨hwell.store, hwell.chained.push _⟩
  have hrests : Rests env.atDelivery index s noted :=
    ⟨⟨.refl _, rfl, fun _ _ _ => rfl, fun _ h => h⟩, fun _ _ => rfl⟩
  obtain ⟨hreleased, hfirst⟩ := @rests_releaseAll _ env.atDelivery index _ hnoted
    env.atDelivery ReceptionEnv.lt_of_mem_map (fun _ hslot => .inr hslot)
  obtain ⟨hdone, hsecond⟩ := @rests_releaseAll _ env.atDelivery index _ hreleased [index]
    (by simpa using hindex) (by simp)
  exact ⟨hdone, (hrests.trans hfirst).trans hsecond⟩

theorem continues_updateSlot (hwell : s.Well limits) (hlive : (s.slot index).live = true)
    {update : AssemblerSlot → AssemblerSlot} (hformed : (update (s.slot index)).WellFormed)
    (hcapacity : (update (s.slot index)).capacityBytes = (s.slot index).capacityBytes)
    (howned : (update (s.slot index)).owned = (s.slot index).owned)
    (hstill : (update (s.slot index)).live = true)
    (hobject : (update (s.slot index)).isObject (s.slot index).trackAlias
      (s.slot index).groupId (s.slot index).objectId = true) :
    (s.withStore (s.store.updateSlot index update)).Well limits ∧
      Continues released index s (s.withStore (s.store.updateSlot index update)) ∧
      ∀ other, (s.withStore (s.store.updateSlot index update)).slot other =
        if other = index then update (s.slot index) else s.slot other := by
  have hmine : (s.slot index).owned = true := (hwell.store.settled index).trans hlive
  have hlt := hwell.store.indexed.lt_length (hwell.store.indexed.lt_of_owned hmine)
  have hslot : ∀ other, (s.withStore (s.store.updateSlot index update)).slot other =
      if other = index then update (s.slot index) else s.slot other :=
    AssemblerPool.slot_setSlot hlt _
  refine ⟨⟨hwell.store.updateSlot hlive hformed hcapacity howned hstill hobject,
    hwell.chained⟩, ⟨.refl _, rfl, fun other hother _ => ?_, fun other hother => ?_⟩, hslot⟩
  · rw [hslot, if_neg hother]
  · rw [hslot] at hother
    split at hother
    · next hsame =>
        rw [hsame]
        exact hlive
    · exact hother

theorem rests_deliver (hwell : s.Well limits) (hlive : (s.slot index).live = true)
    (header : FecHeader) :
    (s.deliver env header index).Well limits ∧
      Rests env.atDelivery index s (s.deliver env header index) := by
  have hindex : index < hardMaxAssemblers :=
    hwell.store.indexed.lt_of_owned ((hwell.store.settled index).trans hlive)
  unfold deliver
  split
  · exact ⟨hwell, .refl env.atDelivery index s⟩
  split
  · split
    · exact rests_completeObject hwell hindex header
    · exact ⟨hwell, .refl env.atDelivery index s⟩
  split
  · exact ⟨hwell, .refl env.atDelivery index s⟩
  split
  · exact ⟨hwell, .refl env.atDelivery index s⟩
  next recovered _ =>
  obtain ⟨hfilled, hcontinues, hslot⟩ := @continues_updateSlot _ env.atDelivery index _ hwell hlive
    (·.fillMissing recovered) ((hwell.store.wellFormed index).fillMissing recovered) rfl rfl
    hlive (AssemblerSlot.isObject_iff.mpr ⟨rfl, rfl, rfl⟩)
  have hrests : Rests env.atDelivery index s
      (s.withStore (s.store.updateSlot index (·.fillMissing recovered))) := by
    refine ⟨hcontinues, fun other _ => ?_⟩
    rw [hslot]
    split
    · next hother => exact congrArg (fun index => (s.slot index).lastActivity) hother.symm
    · rfl
  split
  · obtain ⟨hdone, hcompleted⟩ := rests_completeObject hfilled hindex header
    exact ⟨hdone, hrests.trans hcompleted⟩
  · exact ⟨hfilled, hrests⟩

/-- The symbol is stored in its slot; one that is there already renews nothing. -/
theorem continues_assemble (hwell : s.Well limits) (hlive : (s.slot index).live = true)
    {datagram : Datagram} (hsize : datagram.symbol.length = (s.slot index).symbolSize) :
    (s.assemble env datagram index).Well limits ∧
      Continues env.atDelivery index s (s.assemble env datagram index) ∧
      ((s.slot index).received datagram.header.symbolIndex = true →
        Rests env.atDelivery index s (s.assemble env datagram index)) := by
  obtain ⟨hsound, haccount, hcases⟩ := hwell.store.enlarge hlive datagram.header.totalSymbols
    datagram.header.symbolSize env.allocates
  unfold assemble
  simp only
  generalize s.store.enlarge index datagram.header.totalSymbols datagram.header.symbolSize
    env.allocates = attempt at hsound haccount hcases ⊢
  obtain ⟨store, enlarges⟩ := attempt
  rcases hcases with ⟨hfailed, hpool, -⟩ | ⟨hdone, hothers, henlarged⟩
  · obtain rfl : enlarges = false := hfailed
    have hslot : ∀ other, (s.withStore store).slot other = s.slot other := fun other =>
      congrArg (fun pool => AssemblerPool.slot pool other) hpool
    have hrests : Rests env.atDelivery index s (s.withStore store) :=
      ⟨⟨haccount, rfl, fun other _ _ => hslot other, fun other h => hslot other ▸ h⟩,
        fun other _ => by rw [hslot]⟩
    exact ⟨⟨hsound, hwell.chained⟩, hrests.toContinues, fun _ => hrests⟩
  · obtain rfl : enlarges = true := hdone
    have hothers : ∀ other, other ≠ index → (s.withStore store).slot other = s.slot other :=
      hothers
    have henlarged : AssemblerStore.Enlarged (s.slot index) ((s.withStore store).slot index)
      datagram.header.totalSymbols := henlarged
    have hwell' : (s.withStore store).Well limits := ⟨hsound, hwell.chained⟩
    have hlive' := henlarged.live hlive
    have hrests : Rests env.atDelivery index s (s.withStore store) := by
      refine ⟨⟨haccount, rfl, fun other hother _ => hothers other hother, fun other h => ?_⟩,
        fun other _ => ?_⟩
      · by_cases hother : other = index
        · exact hother ▸ hlive
        · exact hothers other hother ▸ h
      · by_cases hother : other = index
        · rw [hother, henlarged.lastActivity_eq]
        · rw [hothers other hother]
    simp only
    split
    · exact ⟨hwell', hrests.toContinues, fun _ => hrests⟩
    next hinside =>
    have hsize' : datagram.symbol.length = ((s.withStore store).slot index).symbolSize :=
      hsize.trans henlarged.symbolSize_eq.symm
    obtain ⟨hcapacity, howned, hstill, hobject⟩ := AssemblerSlot.WellFormed.storeSymbol_keeps
      ((s.withStore store).slot index) datagram.header.symbolIndex datagram.symbol env.nowMs
    obtain ⟨hstored, hcontinues, hslot⟩ := @continues_updateSlot _ env.atDelivery index _
      hwell' hlive'
      (·.storeSymbol datagram.header.symbolIndex datagram.symbol env.nowMs)
      ((hwell'.store.wellFormed index).storeSymbol (Nat.not_le.mp hinside) hsize' _) hcapacity
      howned (hstill.trans hlive') hobject
    have hlive'' : (((s.withStore store).withStore ((s.withStore store).store.updateSlot index
        (·.storeSymbol datagram.header.symbolIndex datagram.symbol env.nowMs))).slot
          index).live = true := by
      rw [hslot, if_pos rfl]
      exact hstill.trans hlive'
    obtain ⟨hdone, hdelivered⟩ := @rests_deliver _ env index _ hstored hlive'' datagram.header
    refine ⟨hdone, (hrests.toContinues.trans hcontinues).trans hdelivered.toContinues,
      fun hduplicate => ?_⟩
    have hsame : Rests env.atDelivery index (s.withStore store)
        ((s.withStore store).withStore ((s.withStore store).store.updateSlot index
          (·.storeSymbol datagram.header.symbolIndex datagram.symbol env.nowMs))) := by
      refine ⟨hcontinues, fun other _ => ?_⟩
      rw [hslot]
      split
      · next hother =>
        have hthere : ((s.withStore store).slot index).received datagram.header.symbolIndex =
          true := (henlarged.received_eq _).trans hduplicate
        rw [AssemblerSlot.storeSymbol, if_pos hthere, hother]
      · rfl
    exact (hrests.trans hsame).trans hdelivered

end Steps

end Reception

end Qlinq
