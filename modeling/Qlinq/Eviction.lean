import Qlinq.Lib.SlotTable
import Qlinq.ReceptionSteps
import Qlinq.WindowSizing

namespace Qlinq

/-! Which slot a new object takes, and what it costs the others. -/

namespace AssemblerWindow

variable {window : AssemblerWindow} {cap : Nat}

/-- The window only widens, up to the connection's limit. -/
structure Widens (cap : Nat) (window widened : AssemblerWindow) (limit : Nat) : Prop where
  limit_eq : widened.limit = limit
  positive : 0 < limit
  le_limit : window.limit ≤ limit
  limit_le : limit ≤ cap

theorem widens_resize (hcap : 0 < cap) (hlimit : window.limit ≤ cap) (rttsMs : List Nat)
    (hsymbols : 0 < totalSymbols) (hsize : 0 < symbolSize) :
    Widens cap window (window.resize cap rttsMs totalSymbols symbolSize).1
      (window.resize cap rttsMs totalSymbols symbolSize).2 := by
  unfold resize
  rw [if_neg (by omega)]
  extract_lets target raised limit
  have htarget : target ≤ cap := Nat.min_le_right _ _
  have hminimum : min cap minAssemblerWindow ≤ cap := Nat.min_le_left _ _
  have hpositive : 0 < min cap minAssemblerWindow := Nat.lt_min.mpr ⟨hcap, by decide⟩
  have hraised : window.limit ≤ raised ∧ raised ≤ cap := by
    simp only [raised]
    split
    · next hlower => exact ⟨Nat.le_of_lt hlower, htarget⟩
    · exact ⟨Nat.le_refl _, hlimit⟩
  have hwide : min cap minAssemblerWindow ≤ limit ∧ raised ≤ limit ∧ limit ≤ cap := by
    simp only [limit]
    split
    · next hlower => exact ⟨Nat.le_refl _, Nat.le_of_lt hlower, hminimum⟩
    · next hlower => exact ⟨Nat.not_lt.mp hlower, Nat.le_refl _, hraised.2⟩
  exact ⟨rfl, Nat.lt_of_lt_of_le hpositive hwide.1, Nat.le_trans hraised.1 hwide.2.1,
    hwide.2.2⟩

end AssemblerWindow

namespace AssemblerPool

/-- The slot is free, or all that were looked at are taken and none was idle for longer. -/
structure Chosen (pool : AssemblerPool) (candidates : List Nat) (best chosen : Nat) : Prop where
  mem : chosen = best ∨ chosen ∈ candidates
  free : (∃ index ∈ candidates, (pool.slot index).live = false) →
    (pool.slot chosen).live = false
  oldest : (∀ index ∈ candidates, (pool.slot index).live = true) →
    (pool.slot chosen).lastActivity ≤ (pool.slot best).lastActivity ∧
      ∀ index ∈ candidates, (pool.slot chosen).lastActivity ≤ (pool.slot index).lastActivity

theorem chosen_selectSlot (pool : AssemblerPool) (cursor window : Nat) (offsets : List Nat)
    (best : Nat) :
    Chosen pool (offsets.map fun offset => (cursor + offset) % window) best
      (pool.selectSlot cursor window offsets best) := by
  induction offsets generalizing best with
  | nil => exact ⟨.inl rfl, by simp, fun _ => ⟨Nat.le_refl _, by simp⟩⟩
  | cons offset rest ih =>
      rw [selectSlot, List.map_cons]
      generalize (cursor + offset) % window = index
      cases hlive : (pool.slot index).live with
      | false =>
          rw [Bool.not_false, if_pos rfl]
          refine ⟨.inr List.mem_cons_self, fun _ => hlive, fun hall => ?_⟩
          have htaken := hall index List.mem_cons_self
          rw [hlive] at htaken
          cases htaken
      | true =>
          rw [Bool.not_true, if_neg Bool.false_ne_true]
          obtain ⟨hmem, hfree, holdest⟩ := ih (if (pool.slot index).lastActivity <
            (pool.slot best).lastActivity then index else best)
          refine ⟨?_, fun hany => hfree ?_, fun hall => ?_⟩
          · rcases hmem with hbest | hlater
            · rw [hbest]
              split
              · exact .inr List.mem_cons_self
              · exact .inl rfl
            · exact .inr (List.mem_cons_of_mem _ hlater)
          · obtain ⟨other, hother, hblank⟩ := hany
            rcases List.mem_cons.mp hother with rfl | hlater
            · rw [hlive] at hblank
              cases hblank
            · exact ⟨other, hlater, hblank⟩
          · obtain ⟨-, hrest⟩ := List.forall_mem_cons.mp hall
            obtain ⟨hbest, hothers⟩ := holdest hrest
            have hbound : (pool.slot (if (pool.slot index).lastActivity <
                (pool.slot best).lastActivity then index else best)).lastActivity ≤
                  (pool.slot best).lastActivity ∧
                (pool.slot (if (pool.slot index).lastActivity <
                  (pool.slot best).lastActivity then index else best)).lastActivity ≤
                  (pool.slot index).lastActivity := by
              split
              · next hearlier => exact ⟨Nat.le_of_lt hearlier, Nat.le_refl _⟩
              · next hlater => exact ⟨Nat.le_refl _, Nat.not_lt.mp hlater⟩
            exact ⟨Nat.le_trans hbest hbound.1,
              List.forall_mem_cons.mpr ⟨Nat.le_trans hbest hbound.2, hothers⟩⟩

/-- The choice from a window of slots. -/
structure ChosenWithin (pool : AssemblerPool) (window chosen : Nat) : Prop where
  lt : chosen < window
  free : (∃ index < window, (pool.slot index).live = false) → (pool.slot chosen).live = false
  oldest : (∀ index < window, (pool.slot index).live = true) →
    ∀ index < window, (pool.slot chosen).lastActivity ≤ (pool.slot index).lastActivity

theorem chosenWithin_selectSlot (pool : AssemblerPool) (cursor : Nat) (hwindow : 0 < window) :
    ChosenWithin pool window
      (pool.selectSlot cursor window (List.range window) (cursor % window)) := by
  have hmem : ∀ index, index ∈ (List.range window).map (fun offset => (cursor + offset) % window) ↔
      index < window := by
    intro index
    constructor
    · intro hindex
      obtain ⟨offset, -, rfl⟩ := List.mem_map.mp hindex
      exact Nat.mod_lt _ hwindow
    · intro hindex
      obtain ⟨offset, hoffset, hwrap⟩ := SlotTable.exists_offset cursor hindex
      exact List.mem_map.mpr ⟨offset, List.mem_range.mpr hoffset, hwrap⟩
  obtain ⟨hchosen, hfree, holdest⟩ :=
    chosen_selectSlot pool cursor window (List.range window) (cursor % window)
  simp only [hmem] at hchosen hfree holdest
  refine ⟨?_, hfree, fun hall => (holdest hall).2⟩
  rcases hchosen with hbest | hinside
  · rw [hbest]
    exact Nat.mod_lt _ hwindow
  · exact hinside

end AssemblerPool

namespace Reception

open AssemblerStore (SameAccount)

/-- The assemblers and the ring are sound, and every live slot is inside the window. -/
structure Sound (limits : AssemblerLimits) (s : Reception) : Prop extends Well limits s where
  limit_le : s.receiver.window.limit ≤ limits.maxAssemblers
  inside : ∀ index, (s.slot index).live = true → index < s.receiver.window.limit

variable {limits : AssemblerLimits} {env : ReceptionEnv} {released : List Nat} {index : Nat}
  {s s' : Reception}

theorem Sound.continues (hsound : s.Sound limits) (hwell : s'.Well limits)
    (hcontinues : Continues released index s s') : s'.Sound limits where
  toWell := hwell
  limit_le := hcontinues.window ▸ hsound.limit_le
  inside other hlive := hcontinues.window ▸ hsound.inside other (hcontinues.live other hlive)

/-- The slots that the application releases when it is told of the loss of the object that
held this slot. -/
def atLoss (s : Reception) (env : ReceptionEnv) (index : Nat) : List Nat :=
  if (s.slot index).live then env.lossReleases.map Fin.val else []

/-- What a new object does: its slot is chosen from the window, and the others stay. -/
structure Opens (env : ReceptionEnv) (selected : Nat) (s s' : Reception) : Prop where
  account : SameAccount s.memory s'.memory
  window_le : s.receiver.window.limit ≤ s'.receiver.window.limit
  chosen : s.receiver.pool.ChosenWithin s'.receiver.window.limit selected
  kept : ∀ other, other ≠ selected → other ∉ s.atLoss env selected → s'.slot other = s.slot other

theorem opens_openAssembler (hsound : s.Sound limits) {header : FecHeader}
    (hsymbols : 0 < header.totalSymbols) (hsize : 0 < header.symbolSize)
    (hfresh : s.receiver.pool.findAssembler header.trackAlias header.groupId header.objectId =
      none) :
    let result := s.openAssembler limits.maxAssemblers env header
    result.1.Sound limits ∧
      Opens env (s.selected limits.maxAssemblers env header) s result.1 ∧
      ∀ index, result.2 = some index →
        index = s.selected limits.maxAssemblers env header ∧
          (result.1.slot index).live = true ∧
          (result.1.slot index).symbolSize = header.symbolSize := by
  have hwidens := AssemblerWindow.widens_resize limits.positive hsound.limit_le env.rttsMs
    hsymbols hsize
  have hchosen := AssemblerPool.chosenWithin_selectSlot s.receiver.pool
    s.receiver.assemblerIndex hwidens.positive
  change AssemblerPool.ChosenWithin _ _ (s.selected limits.maxAssemblers env header) at hchosen
  intro result
  have hinside : s.selected limits.maxAssemblers env header < limits.maxAssemblers :=
    Nat.lt_of_lt_of_le hchosen.lt hwidens.limit_le
  have hselected : s.selected limits.maxAssemblers env header < hardMaxAssemblers :=
    Nat.lt_of_lt_of_le hinside limits.le_hardMax
  simp only [result, openAssembler]
  generalize s.selected limits.maxAssemblers env header = selected at hchosen hinside hselected
  generalize hresized : s.receiver.window.resize limits.maxAssemblers env.rttsMs
    header.totalSymbols header.symbolSize = resized at hwidens hchosen
  generalize hmoves : s.withWindow resized.1 ((selected + 1) % resized.2) = moved
  have hmoved : moved.Sound limits ∧ moved.receiver.window.limit = resized.2 := by
    have hlimit : moved.receiver.window.limit = resized.2 := hmoves ▸ hwidens.limit_eq
    have hwell : moved.Well limits := hmoves ▸ ⟨hsound.store, hsound.chained⟩
    refine ⟨⟨hwell, hlimit ▸ hwidens.limit_le, fun other hlive => ?_⟩, hlimit⟩
    have hlive : (s.slot other).live = true := by
      subst hmoves
      exact hlive
    rw [hlimit]
    exact Nat.lt_of_lt_of_le (hsound.inside other hlive) hwidens.le_limit
  have hsame : ∀ other, moved.slot other = s.slot other := fun _ => hmoves ▸ rfl
  have haccount : SameAccount s.memory moved.memory := hmoves ▸ .refl _
  obtain ⟨hmoved, hwindow⟩ := hmoved
  generalize htells : (if (s.slot selected).live = true then
    moved.releaseAll (env.lossReleases.map Fin.val) else moved) = told
  have htold : told.Sound limits ∧ Rests (s.atLoss env selected) selected moved told ∧
      ∀ other, told.slot other = {} ∨ told.slot other = moved.slot other := by
    subst htells
    split
    · next hlost =>
      have hloss : s.atLoss env selected = env.lossReleases.map Fin.val := if_pos hlost
      obtain ⟨hwell, hrests⟩ := @rests_releaseAll _ (s.atLoss env selected) selected _
        hmoved.toWell (env.lossReleases.map Fin.val) ReceptionEnv.lt_of_mem_map
        (fun slot hslot => .inr (hloss ▸ hslot))
      refine ⟨hmoved.continues hwell hrests.toContinues, hrests, fun other => ?_⟩
      have hslot := (hmoved.store.releaseAll
        (@ReceptionEnv.lt_of_mem_map env.lossReleases)).2.2 other
      split at hslot
      · exact .inl hslot
      · exact .inr hslot
    · exact ⟨hmoved, .refl _ _ _, fun _ => .inr rfl⟩
  obtain ⟨htold, hrests, hcleared⟩ := htold
  have hlimit : told.receiver.window.limit = resized.2 := by
    rw [hrests.window]
    exact hwindow
  have hopens : Opens env selected s told :=
    ⟨haccount.trans hrests.account, by rw [hlimit]; exact hwidens.le_limit,
      by rw [hlimit]; exact hchosen,
      fun other hother hkept => (hrests.kept other hother hkept).trans (hsame other)⟩
  split
  · exact ⟨htold, hopens, nofun⟩
  have hfree : told.store.pool.findAssembler header.trackAlias header.groupId
      header.objectId = none := by
    rw [htold.store.indexed.findAssembler_eq_none_iff]
    intro other howned
    have hslot : told.slot other = s.slot other := by
      rcases hcleared other with hblank | hkept
      · have howned : (told.slot other).owned = true := howned
        rw [hblank] at howned
        cases howned
      · exact hkept.trans (hsame other)
    change (told.slot other).isObject _ _ _ = false
    have howned : (told.slot other).owned = true := howned
    rw [hslot] at howned ⊢
    exact hsound.store.indexed.findAssembler_eq_none_iff.mp hfresh other howned
  obtain ⟨hopened, hcharged, hothers, hself⟩ := htold.store.openSlot hselected hinside hsymbols
    hfree env.nowMs env.allocates
  generalize told.store.openSlot selected header env.nowMs env.allocates = attempt at *
  obtain ⟨store, opened⟩ := attempt
  have hresult : (told.withStore store).Sound limits := by
    refine ⟨⟨hopened, htold.chained⟩, htold.limit_le, fun other hlive => ?_⟩
    by_cases hother : other = selected
    · rw [hother]
      exact hlimit ▸ hchosen.lt
    · have hslot : (told.withStore store).slot other = told.slot other := hothers other hother
      rw [hslot] at hlive
      exact htold.inside other hlive
  have hopens' : Opens env selected s (told.withStore store) :=
    ⟨hopens.account.trans hcharged, hopens.window_le, hopens.chosen,
      fun other hother hkept => (hothers other hother).trans (hopens.kept other hother hkept)⟩
  rcases hself with ⟨hfailed, -⟩ | ⟨hdone, room, hslot⟩
  · obtain rfl : opened = false := hfailed
    exact ⟨hresult, hopens', nofun⟩
  · obtain rfl : opened = true := hdone
    refine ⟨hresult, hopens', fun index hindex => ?_⟩
    obtain rfl := Option.some.inj hindex
    have hslot : (told.withStore store).slot selected =
        { room.start header env.nowMs with owned := true } := hslot
    change _ ∧ ((told.withStore store).slot selected).live = true ∧
      ((told.withStore store).slot selected).symbolSize = _
    rw [hslot]
    exact ⟨rfl, decide_eq_true hsymbols, rfl⟩

/-! ### One datagram -/

/-- The slot of the object that a datagram belongs to. -/
def objectSlot (s : Reception) (header : FecHeader) : Option Nat :=
  s.receiver.pool.findAssembler header.trackAlias header.groupId header.objectId

/-- The object was handed out already. -/
def completedBefore (s : Reception) (env : ReceptionEnv) (header : FecHeader) : Bool :=
  s.receiver.completed.isDuplicate header.trackAlias env.generation header.groupId
      header.objectId || env.wasDelivered

/-- A valid datagram of an object that is neither completed nor in a slot. -/
def opensObject (s : Reception) (env : ReceptionEnv) (datagram : Datagram) : Bool :=
  datagramValid s.receiver.maxFecObjectSize datagram &&
    !s.completedBefore env datagram.header && (s.objectSlot datagram.header).isNone

/-- The object was handed out already, or its slot has the symbol. -/
def repeats (s : Reception) (env : ReceptionEnv) (header : FecHeader) : Bool :=
  s.completedBefore env header ||
    (s.objectSlot header).any fun index => (s.slot index).received header.symbolIndex

/-- What a datagram does to the slots.  Only the application's answers, which release the
slots of `atLoss` and of `atDelivery`, are left open. -/
structure Receives (env : ReceptionEnv) (datagram : Datagram) (s s' : Reception) : Prop where
  account : SameAccount s.memory s'.memory
  window_le : s.receiver.window.limit ≤ s'.receiver.window.limit
  known : s.opensObject env datagram = false → ∀ other, s.objectSlot datagram.header ≠ some other →
    other ∉ env.atDelivery → s'.slot other = s.slot other
  free : s.opensObject env datagram = true →
    (∃ index < s'.receiver.window.limit, (s.slot index).live = false) →
    ∀ other, (s.slot other).live = true → other ∉ env.atDelivery → s'.slot other = s.slot other
  full : s.opensObject env datagram = true →
    (∀ index < s'.receiver.window.limit, (s.slot index).live = true) →
    ∃ victim < s'.receiver.window.limit,
      (∀ index < s'.receiver.window.limit,
        (s.slot victim).lastActivity ≤ (s.slot index).lastActivity) ∧
      ∀ other, other ≠ victim → other ∉ s.atLoss env victim → other ∉ env.atDelivery →
        s'.slot other = s.slot other
  repeated : s.repeats env datagram.header = true →
    ∀ index, (s'.slot index).live = true →
      (s'.slot index).lastActivity = (s.slot index).lastActivity

/-- A datagram that takes no slot and changes at most that of its object. -/
theorem Receives.of_continues (hcontinues : Continues env.atDelivery index s s')
    (hkept : ∀ other, s.objectSlot datagram.header ≠ some other → other ∉ env.atDelivery →
      s'.slot other = s.slot other)
    (hknown : s.opensObject env datagram = false)
    (hrepeated : s.repeats env datagram.header = true → Rests env.atDelivery index s s') :
    Receives env datagram s s' where
  account := hcontinues.account
  window_le := Nat.le_of_eq (congrArg AssemblerWindow.limit hcontinues.window).symm
  known _ := hkept
  free hopens := absurd (hopens.symm.trans hknown) (by decide)
  full hopens := absurd (hopens.symm.trans hknown) (by decide)
  repeated hrepeats := (hrepeated hrepeats).activity

theorem Receives.of_opens {chosen : Nat} {opened : Reception} (hopens : Opens env chosen s opened)
    (hcontinues : Continues env.atDelivery chosen opened s')
    (hnew : s.opensObject env datagram = true) (hfresh : s.repeats env datagram.header = false) :
    Receives env datagram s s' := by
  have hlimit : s'.receiver.window.limit = opened.receiver.window.limit :=
    congrArg AssemblerWindow.limit hcontinues.window
  have hchosen := hopens.chosen
  rw [← hlimit] at hchosen
  refine ⟨hopens.account.trans hcontinues.account, hlimit ▸ hopens.window_le,
    fun hknown => absurd (hnew.symm.trans hknown) (by decide), fun _ hfree other hlive hkept => ?_,
    fun _ hall => ⟨chosen, hchosen.lt, hchosen.oldest hall, fun other hother hloss hkept => ?_⟩,
    fun hrepeats => absurd (hrepeats.symm.trans hfresh) (by decide)⟩
  · have hblank : (s.slot chosen).live = false := hchosen.free hfree
    have hother : other ≠ chosen := by
      intro hsame
      rw [hsame, hblank] at hlive
      cases hlive
    have hloss : other ∉ s.atLoss env chosen := by
      rw [atLoss, hblank]
      exact List.not_mem_nil
    exact (hcontinues.kept other hother hkept).trans (hopens.kept other hother hloss)
  · exact (hcontinues.kept other hother hkept).trans (hopens.kept other hother hloss)

/-- The measured receive rate decides nothing but the next window. -/
theorem Receives.of_observed {window : AssemblerWindow}
    (hlimit : window.limit = s.receiver.window.limit)
    (hreceives : Receives env datagram (s.withWindow window s.receiver.assemblerIndex) s') :
    Receives env datagram s s' where
  account := hreceives.account
  window_le := Nat.le_trans (Nat.le_of_eq hlimit.symm) hreceives.window_le
  known := hreceives.known
  free := hreceives.free
  full := hreceives.full
  repeated := hreceives.repeated

theorem Sound.live_objectSlot (hsound : s.Sound limits)
    (hfound : s.objectSlot header = some index) : (s.slot index).live = true := by
  obtain ⟨howned, -⟩ := hsound.store.indexed.findAssembler_eq_some_iff.mp hfound
  exact (hsound.store.settled index).symm.trans howned

/-- A symbol of an object that has a slot, or of one that was completed. -/
theorem receives_known (hsound : s.Sound limits) (env : ReceptionEnv) {datagram : Datagram}
    (hcontinues : s'.Well limits ∧ Continues env.atDelivery index s s')
    (hkept : s'.slot index ≠ s.slot index → s.objectSlot datagram.header = some index)
    (hknown : s.opensObject env datagram = false)
    (hrepeated : s.repeats env datagram.header = true → Rests env.atDelivery index s s') :
    s'.Sound limits ∧ Receives env datagram s s' := by
  refine ⟨hsound.continues hcontinues.1 hcontinues.2, .of_continues hcontinues.2 ?_ hknown
    hrepeated⟩
  intro other hother hdelivered
  by_cases hsame : other = index
  · rw [hsame] at hother ⊢
    by_contra hchanged
    exact hother (hkept hchanged)
  · exact hcontinues.2.kept other hsame hdelivered

theorem receives_receiveDatagram (hsound : s.Sound limits) (env : ReceptionEnv)
    (datagram : Datagram) :
    (s.receiveDatagram limits.maxAssemblers env datagram).Sound limits ∧
      Receives env datagram s (s.receiveDatagram limits.maxAssemblers env datagram) := by
  unfold receiveDatagram
  extract_lets header observed
  split
  · next hinvalid =>
    have hinvalid : datagramValid s.receiver.maxFecObjectSize datagram = false := by
      simpa using hinvalid
    exact receives_known hsound env ⟨hsound.toWell, (Rests.refl env.atDelivery 0 s).toContinues⟩
      (fun hchanged => absurd rfl hchanged) (by rw [opensObject, hinvalid]; rfl)
      fun _ => .refl _ _ _
  next hvalid =>
  have hvalid : datagramValid s.receiver.maxFecObjectSize datagram = true := by
    simpa using hvalid
  obtain ⟨hsymbols, hsize, hlength⟩ : 0 < header.totalSymbols ∧ 0 < header.symbolSize ∧
      datagram.symbol.length = header.symbolSize := by
    simp only [datagramValid, Bool.and_eq_true, decide_eq_true_eq, beq_iff_eq] at hvalid
    grind
  have hlimit := s.receiver.window.limit_observeReceive header.symbolSize env.nowMs
  have hobserved : observed.Sound limits :=
    ⟨⟨hsound.store, hsound.chained⟩, hlimit ▸ hsound.limit_le, fun other hlive =>
      hlimit ▸ hsound.inside other hlive⟩
  refine (fun h => ⟨h.1, .of_observed hlimit h.2⟩ : _ ∧ Receives env datagram observed _ → _) ?_
  have hresting := (Rests.refl env.atDelivery 0 observed).toContinues
  split
  · next hcompleted =>
    have hcompleted : observed.completedBefore env datagram.header = true := hcompleted
    exact receives_known hobserved env ⟨hobserved.toWell, hresting⟩
      (fun hchanged => absurd rfl hchanged)
      (by rw [opensObject, hcompleted, Bool.not_true, Bool.and_false]; rfl) fun _ => .refl _ _ _
  next hcompleted =>
  have hcompleted : observed.completedBefore env datagram.header = false :=
    Bool.not_eq_true _ |>.mp hcompleted
  split
  · next index hfound =>
    have hfound : observed.objectSlot datagram.header = some index := hfound
    have hlive := hobserved.live_objectSlot hfound
    have hknown : observed.opensObject env datagram = false := by
      rw [opensObject, hfound, Option.isNone_some, Bool.and_false]
    extract_lets slot
    split
    · exact receives_known hobserved env ⟨hobserved.toWell, hresting⟩
        (fun hchanged => absurd rfl hchanged) hknown fun _ => .refl _ _ _
    next hmatches =>
    have hsize : datagram.symbol.length = (observed.slot index).symbolSize := by
      by_contra hother
      exact hmatches (.inl fun hsame => hother (hlength.trans hsame.symm))
    obtain ⟨hwell, hcontinues, hduplicate⟩ := continues_assemble hobserved.toWell hlive hsize
    refine receives_known hobserved env ⟨hwell, hcontinues⟩ (fun _ => hfound) hknown
      fun hrepeats => hduplicate ?_
    rw [repeats, hcompleted, hfound] at hrepeats
    exact hrepeats
  · next hnone =>
    have hnone : observed.objectSlot datagram.header = none := hnone
    have hnew : observed.opensObject env datagram = true := by
      rw [opensObject, hcompleted, hnone, Bool.not_false, Bool.and_true, Option.isNone_none,
        Bool.and_true]
      exact hvalid
    have hfresh : observed.repeats env datagram.header = false := by
      rw [repeats, hcompleted, hnone]
      rfl
    obtain ⟨hopened, hopens, hslot⟩ := @opens_openAssembler _ env _ hobserved _ hsymbols hsize
      hnone
    generalize observed.openAssembler limits.maxAssemblers env header = attempt at *
    obtain ⟨opened, taken⟩ := attempt
    cases taken with
    | none => exact ⟨hopened, Receives.of_opens hopens (Rests.refl _ _ _).toContinues hnew hfresh⟩
    | some index =>
        obtain ⟨rfl, hlive, hsame⟩ := hslot index rfl
        obtain ⟨hwell, hcontinues, -⟩ := continues_assemble hopened.toWell hlive
          (hlength.trans hsame.symm)
        exact ⟨hopened.continues hwell hcontinues, .of_opens hopens hcontinues hnew hfresh⟩

end Reception

end Qlinq
