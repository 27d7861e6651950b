import Qlinq.AssemblerIndex

namespace Qlinq

/-! What releasing, opening, growing and filling a slot keep: its buffers, the index and the
account of the memory. -/

namespace AssemblerSlot

/-- What a slot has of a symbol. -/
def symbol (slot : AssemblerSlot) (index : Nat) : Bytes := (slot.buffer index).take slot.symbolSize

/-- The buffers have the slot's capacity, its object fits, and nothing beyond the object's
symbols counts as received. -/
structure WellFormed (slot : AssemblerSlot) : Prop where
  unallocated : slot.buffers = none →
    slot.capacitySymbols = 0 ∧ slot.capacitySymbolSize = 0 ∧ slot.receivedMask = []
  allocated : ∀ buffers, slot.buffers = some buffers →
    buffers.length = slot.capacitySymbols ∧
      (∀ buffer ∈ buffers, buffer.length = slot.capacitySymbolSize) ∧
      slot.receivedMask.length = slot.capacitySymbols
  total_le : slot.totalSymbols ≤ slot.capacitySymbols
  size_le : slot.symbolSize ≤ slot.capacitySymbolSize
  unreceived : ∀ index, slot.totalSymbols ≤ index → slot.received index = false

theorem wellFormed_blank : ({} : AssemblerSlot).WellFormed where
  unallocated _ := ⟨rfl, rfl, rfl⟩
  allocated _ h := nomatch h
  total_le := Nat.le_refl 0
  size_le := Nat.le_refl 0
  unreceived _ _ := rfl

theorem tooSmall_eq_false {slot : AssemblerSlot} (hroom : slot.tooSmall symbols size = false) :
    slot.buffers.isSome = true ∧ symbols ≤ slot.capacitySymbols ∧
      size ≤ slot.capacitySymbolSize := by
  simp only [tooSmall, Bool.or_eq_false_iff, decide_eq_false_iff_not, Nat.not_lt,
    Option.isNone_eq_false_iff] at hroom
  exact ⟨hroom.1.1, hroom.1.2, hroom.2⟩

/-- A slot that grew has the capacity asked for and holds what it held. -/
structure Grows (slot grown : AssemblerSlot) (symbols size : Nat) : Prop where
  wellFormed : grown.WellFormed
  roomy : grown.tooSmall symbols size = false
  bytes_eq : grown.capacityBytes =
    if slot.tooSmall symbols size then
      requiredBytes (max slot.capacitySymbols symbols) (max slot.capacitySymbolSize size)
    else
      slot.capacityBytes
  received_eq : ∀ index, grown.received index = slot.received index
  symbol_eq : ∀ index < slot.totalSymbols, grown.symbol index = slot.symbol index
  kept : grown = slot ∨ ∃ symbols size, grown = slot.replaced symbols size

namespace WellFormed

variable {slot grown : AssemblerSlot}

theorem disown (hformed : slot.WellFormed) (owned : Bool) :
    WellFormed { slot with owned := owned } :=
  ⟨hformed.unallocated, hformed.allocated, hformed.total_le, hformed.size_le,
    hformed.unreceived⟩

theorem length_buffer (hformed : slot.WellFormed) (hindex : index < slot.capacitySymbols) :
    (slot.buffer index).length = slot.capacitySymbolSize := by
  cases hbuffers : slot.buffers with
  | none => exact absurd hindex (by simp [(hformed.unallocated hbuffers).1])
  | some buffers =>
      obtain ⟨hlength, hsizes, -⟩ := hformed.allocated buffers hbuffers
      have hlt : index < buffers.length := hlength ▸ hindex
      rw [buffer, hbuffers, Option.getD_some, List.getD_eq_getElem?_getD,
        List.getElem?_eq_getElem hlt, Option.getD_some]
      exact hsizes _ (List.getElem_mem hlt)

theorem lt_total (hformed : slot.WellFormed) (hreceived : slot.received index = true) :
    index < slot.totalSymbols := by
  by_contra hbeyond
  rw [hformed.unreceived index (Nat.not_lt.mp hbeyond)] at hreceived
  cases hreceived

theorem isSome_buffers (hformed : slot.WellFormed) (hindex : index < slot.totalSymbols) :
    slot.buffers.isSome = true := by
  cases hbuffers : slot.buffers with
  | none =>
      have htotal := hformed.total_le
      rw [(hformed.unallocated hbuffers).1] at htotal
      omega
  | some buffers => rfl

theorem getD_map_range (f : Nat → α) (length index : Nat) (fallback : α) :
    ((List.range length).map f).getD index fallback =
      if index < length then f index else fallback := by
  rw [List.getD_eq_getElem?_getD, List.getElem?_map]
  by_cases hindex : index < length
  · rw [List.getElem?_range hindex, if_pos hindex]
    rfl
  · rw [List.getElem?_eq_none (by simpa using hindex), if_neg hindex]
    rfl

theorem received_replaced (hformed : slot.WellFormed) (hsymbols : slot.capacitySymbols ≤ symbols)
    (size index : Nat) : (slot.replaced symbols size).received index = slot.received index := by
  change ((List.range symbols).map _).getD index false = _
  rw [getD_map_range]
  cases hreceived : slot.received index with
  | false => split <;> simp
  | true =>
      have hindex := hformed.lt_total hreceived
      have htotal := hformed.total_le
      rw [if_pos (by omega), hformed.isSome_buffers hindex, decide_eq_true hindex]
      rfl

theorem symbol_replaced (hformed : slot.WellFormed) (hsymbols : slot.capacitySymbols ≤ symbols)
    (size : Nat) (hindex : index < slot.totalSymbols) :
    (slot.replaced symbols size).symbol index = slot.symbol index := by
  have htotal := hformed.total_le
  have hbuffer : (slot.replaced symbols size).buffer index =
      slot.symbol index ++ List.replicate (size - slot.symbolSize) 0 := by
    change ((List.range symbols).map _).getD index [] = _
    rw [getD_map_range, if_pos (by omega), if_pos ⟨hformed.isSome_buffers hindex, hindex⟩]
    rfl
  have hlength : (slot.symbol index).length = slot.symbolSize := by
    have hsize := hformed.size_le
    rw [symbol, List.length_take, hformed.length_buffer (by omega)]
    omega
  rw [symbol, hbuffer]
  exact List.take_left' hlength

theorem replaced (hformed : slot.WellFormed) (hsymbols : slot.capacitySymbols ≤ symbols)
    (hsize : slot.capacitySymbolSize ≤ size) : (slot.replaced symbols size).WellFormed where
  unallocated := nofun
  allocated buffers hbuffers := by
    obtain rfl := Option.some.inj hbuffers
    refine ⟨by simp [copiedBuffers, AssemblerSlot.replaced], ?_,
      by simp [copiedMask, AssemblerSlot.replaced]⟩
    intro buffer hbuffer
    obtain ⟨index, -, rfl⟩ := List.mem_map.mp hbuffer
    have hown := hformed.size_le
    have htotal := hformed.total_le
    split
    · next hold =>
      rw [List.length_append, List.length_take, List.length_replicate,
        hformed.length_buffer (by omega)]
      change _ = size
      omega
    · exact List.length_replicate
  total_le := Nat.le_trans hformed.total_le hsymbols
  size_le := Nat.le_trans hformed.size_le hsize
  unreceived index hindex :=
    (hformed.received_replaced hsymbols size index).trans (hformed.unreceived index hindex)

theorem grow (hformed : slot.WellFormed)
    (hgrown : slot.grow symbols size allocates = some grown) : Grows slot grown symbols size := by
  unfold AssemblerSlot.grow at hgrown
  split at hgrown
  · cases hgrown
  split at hgrown
  · next hroom =>
    obtain rfl := Option.some.inj hgrown
    have hroom : slot.tooSmall symbols size = false := by simpa using hroom
    exact ⟨hformed, hroom, by simp [hroom], fun _ => rfl, fun _ _ => rfl, .inl rfl⟩
  next hsmall =>
  have hsmall : slot.tooSmall symbols size = true := by simpa using hsmall
  extract_lets newSymbols newSymbolSize at hgrown
  split at hgrown
  · cases hgrown
  split at hgrown
  · cases hgrown
  obtain rfl := Option.some.inj hgrown
  have hsymbols : slot.capacitySymbols ≤ newSymbols := Nat.le_max_left _ _
  have hsize : slot.capacitySymbolSize ≤ newSymbolSize := Nat.le_max_left _ _
  refine ⟨hformed.replaced hsymbols hsize, ?_, ?_, hformed.received_replaced hsymbols _,
    fun _ => hformed.symbol_replaced hsymbols _, .inr ⟨_, _, rfl⟩⟩
  · have hwide : symbols ≤ newSymbols := Nat.le_max_right _ _
    have hlong : size ≤ newSymbolSize := Nat.le_max_right _ _
    simp only [tooSmall, AssemblerSlot.replaced, Option.isNone_some, Bool.false_or,
      Bool.or_eq_false_iff]
    exact ⟨decide_eq_false (Nat.not_lt.mpr hwide), decide_eq_false (Nat.not_lt.mpr hlong)⟩
  · rw [hsmall]
    rfl

theorem start (hformed : slot.WellFormed)
    (hroom : slot.tooSmall header.totalSymbols header.symbolSize = false) (now : Nat) :
    (slot.start header now).WellFormed := by
  obtain ⟨hsome, hsymbols, hsize⟩ := tooSmall_eq_false hroom
  refine ⟨fun hnone => ?_, fun buffers hbuffers => ?_, hsymbols, hsize, fun index _ => ?_⟩
  · rw [show slot.buffers = none from hnone] at hsome
    cases hsome
  · obtain ⟨hlength, hsizes, -⟩ := hformed.allocated buffers hbuffers
    exact ⟨hlength, hsizes, List.length_replicate⟩
  · change (List.replicate slot.capacitySymbols false).getD index false = false
    rw [List.getD_eq_getElem?_getD, List.getElem?_replicate]
    split <;> rfl

theorem storeSymbol (hformed : slot.WellFormed) (hindex : index < slot.totalSymbols)
    (hlength : block.length = slot.symbolSize) (now : Nat) :
    (slot.storeSymbol index block now).WellFormed := by
  unfold AssemblerSlot.storeSymbol
  split
  · exact hformed
  refine ⟨fun hnone => ?_, fun buffers hbuffers => ?_, hformed.total_le, hformed.size_le,
    fun other hother => ?_⟩
  · have hold : slot.buffers = none := Option.map_eq_none_iff.mp hnone
    obtain ⟨hsymbols, hsize, hmask⟩ := hformed.unallocated hold
    exact ⟨hsymbols, hsize, by rw [hmask]; rfl⟩
  · obtain ⟨old, hold, rfl⟩ := Option.map_eq_some_iff.mp hbuffers
    obtain ⟨hcount, hsizes, hmask⟩ := hformed.allocated old hold
    refine ⟨List.length_set.trans hcount, ?_, List.length_set.trans hmask⟩
    intro buffer hbuffer
    rcases List.mem_or_eq_of_mem_set hbuffer with hkept | rfl
    · exact hsizes buffer hkept
    · have htotal := hformed.total_le
      have hsize := hformed.size_le
      rw [List.length_append, List.length_drop, hformed.length_buffer (by omega), hlength]
      change _ = slot.capacitySymbolSize
      omega
  · change (slot.receivedMask.set index true).getD other false = false
    have hapart : index ≠ other := by
      have : slot.totalSymbols ≤ other := hother
      omega
    rw [List.getD_eq_getElem?_getD, List.getElem?_set_ne hapart, ← List.getD_eq_getElem?_getD]
    exact hformed.unreceived other hother

/-- Storing a symbol changes neither the object of the slot nor its capacity. -/
theorem storeSymbol_keeps (slot : AssemblerSlot) (index : Nat) (block : Bytes) (now : Nat) :
    (slot.storeSymbol index block now).capacityBytes = slot.capacityBytes ∧
      (slot.storeSymbol index block now).owned = slot.owned ∧
      (slot.storeSymbol index block now).live = slot.live ∧
      (slot.storeSymbol index block now).isObject slot.trackAlias slot.groupId slot.objectId =
        true := by
  have hown := isObject_iff.mpr ⟨(rfl : slot.trackAlias = _), (rfl : slot.groupId = _),
    (rfl : slot.objectId = _)⟩
  unfold AssemblerSlot.storeSymbol
  split
  · exact ⟨rfl, rfl, rfl, hown⟩
  · exact ⟨rfl, rfl, rfl, hown⟩

theorem fillMissing (hformed : slot.WellFormed) (recovered : List Bytes) :
    (slot.fillMissing recovered).WellFormed := by
  refine ⟨fun hnone => ?_, fun buffers hbuffers => ?_, hformed.total_le, hformed.size_le,
    hformed.unreceived⟩
  · exact hformed.unallocated (Option.map_eq_none_iff.mp hnone)
  · obtain ⟨old, hold, rfl⟩ := Option.map_eq_some_iff.mp hbuffers
    obtain ⟨hcount, hsizes, hmask⟩ := hformed.allocated old hold
    refine ⟨List.length_mapIdx.trans hcount, ?_, hmask⟩
    intro buffer hbuffer
    obtain ⟨index, hindex, rfl⟩ := List.mem_mapIdx.mp hbuffer
    have hlength := hsizes _ (List.getElem_mem hindex)
    have hsize := hformed.size_le
    split
    · rw [List.length_append, List.length_drop, hlength]
      change _ = slot.capacitySymbolSize
      have := List.length_take_le slot.symbolSize (recovered.getD index [])
      omega
    · exact hlength

end WellFormed

end AssemblerSlot

/-- The index is sound, all buffers are, and slots beyond the connection's limit are unused. -/
structure AssemblerPool.Sound (maxAssemblers : Nat) (pool : AssemblerPool) : Prop where
  indexed : pool.Indexed
  settled : pool.Settled
  wellFormed : ∀ index, (pool.slot index).WellFormed
  unused : ∀ index, maxAssemblers ≤ index → pool.slot index = {}

theorem AssemblerPool.sound_init (maxAssemblers : Nat) :
    AssemblerPool.Sound maxAssemblers {} where
  indexed := indexed_init
  settled index := by
    rw [slot_init]
    rfl
  wellFormed index := by
    rw [slot_init]
    exact AssemblerSlot.wellFormed_blank
  unused index _ := slot_init index

namespace AssemblerStore

open AssemblerPool (Indexed slot_setSlot slot_setSlot_self slot_setSlot_of_ne getElem?_slot)

/-- What the bytes held come to when one slot changes. -/
theorem capacityBytes_setSlot {pool : AssemblerPool} {index : Nat}
    (hindex : index < pool.slots.length) (new : AssemblerSlot) :
    (pool.setSlot index new).capacityBytes + (pool.slot index).capacityBytes =
      pool.capacityBytes + new.capacityBytes :=
  Totals.total_set AssemblerSlot.capacityBytes (getElem?_slot hindex) new

theorem capacityBytes_unindexAssembler {pool : AssemblerPool} (hindexed : pool.Indexed)
    (hindex : index < hardMaxAssemblers) :
    (pool.unindexAssembler index).capacityBytes = pool.capacityBytes := by
  cases howned : (pool.slot index).owned with
  | false =>
      rw [AssemblerPool.unindexAssembler, howned]
      rfl
  | true =>
      obtain ⟨chains, -, heq⟩ := hindexed.unindexAssembler_eq howned
      rw [heq]
      exact Nat.add_right_cancel (capacityBytes_setSlot (hindexed.lt_length hindex)
        { pool.slot index with owned := false })

/-- The account is that of what is held, and neither it nor a growth ever passed the limit. -/
structure Charged (store : AssemblerStore) : Prop where
  bytes_eq : store.memory.bytes = store.heldBytes
  bytes_le : store.memory.bytes ≤ store.memory.maxBytes
  peak_le : store.memory.peak ≤ store.memory.maxBytes

/-- The pool is sound, and so is its account. -/
structure Sound (maxAssemblers : Nat) (store : AssemblerStore) : Prop
    extends AssemblerPool.Sound maxAssemblers store.pool where
  charged : store.Charged

/-- The limit and what the other connections hold. -/
structure SameAccount (left right : AssemblerMemory) : Prop where
  maxBytes : right.maxBytes = left.maxBytes
  elsewhere : right.elsewhere = left.elsewhere

theorem SameAccount.refl (memory : AssemblerMemory) : SameAccount memory memory := ⟨rfl, rfl⟩

theorem SameAccount.trans (hfirst : SameAccount first second)
    (hsecond : SameAccount second third) : SameAccount first third :=
  ⟨hsecond.maxBytes.trans hfirst.maxBytes, hsecond.elsewhere.trans hfirst.elsewhere⟩

/-! ### Releasing a slot -/

theorem slot_releaseAssembler {store : AssemblerStore} (hindexed : store.pool.Indexed)
    (hindex : index < hardMaxAssemblers) (other : Nat) :
    (store.releaseAssembler index).pool.slot other =
      if other = index then {} else store.pool.slot other := by
  have hunindexed := hindexed.unindexAssembler hindex
  change ((store.pool.unindexAssembler index).setSlot index {}).slot other = _
  rw [slot_setSlot (hunindexed.lt_length hindex)]
  split
  · rfl
  · next hother => rw [hindexed.slot_unindexAssembler hindex, if_neg hother]

theorem indexed_releaseAssembler {store : AssemblerStore} (hindexed : store.pool.Indexed)
    (hindex : index < hardMaxAssemblers) : (store.releaseAssembler index).pool.Indexed := by
  have hunindexed := hindexed.unindexAssembler hindex
  have hfree : ((store.pool.unindexAssembler index).slot index).owned = false := by
    rw [hindexed.slot_unindexAssembler hindex, if_pos rfl]
  have hblank : ((store.pool.unindexAssembler index).setSlot index {}).Indexed :=
    hunindexed.setSlot hindex hfree.symm nofun
  have hnone : ((store.pool.unindexAssembler index).setSlot index {}).bucketOf index = none := by
    rw [AssemblerPool.bucketOf, slot_setSlot_self (hunindexed.lt_length hindex)]
    rfl
  exact ⟨hblank.length, hblank.chains.setNext hnone 0, hblank.count, hblank.active,
    hblank.unique⟩

theorem Charged.releaseAssembler {store : AssemblerStore} (hcharged : store.Charged)
    (hindexed : store.pool.Indexed) (hindex : index < hardMaxAssemblers) :
    (store.releaseAssembler index).Charged := by
  have hunindexed := hindexed.unindexAssembler hindex
  have hcapacity := capacityBytes_setSlot (hunindexed.lt_length hindex) {}
  rw [capacityBytes_unindexAssembler hindexed hindex] at hcapacity
  have hbytes := hcharged.bytes_eq
  have hle := hcharged.bytes_le
  unfold heldBytes at hbytes
  have hreleased : ((store.pool.unindexAssembler index).setSlot index {}).capacityBytes +
      ((store.pool.unindexAssembler index).slot index).capacityBytes =
        store.pool.capacityBytes := hcapacity
  have hcharge : ((store.pool.unindexAssembler index).slot index).capacityBytes ≤
      store.memory.bytes := by omega
  have hnew : (store.releaseAssembler index).memory.bytes =
      store.memory.bytes - ((store.pool.unindexAssembler index).slot index).capacityBytes :=
    if_pos hcharge
  refine ⟨?_, ?_, hcharged.peak_le⟩
  · rw [hnew]
    change _ = store.memory.elsewhere +
      ((store.pool.unindexAssembler index).setSlot index {}).capacityBytes
    omega
  · rw [hnew]
    exact Nat.le_trans (Nat.sub_le _ _) hle

theorem Sound.releaseAssembler {store : AssemblerStore} (hsound : Sound maxAssemblers store)
    (hindex : index < hardMaxAssemblers) :
    Sound maxAssemblers (store.releaseAssembler index) where
  indexed := indexed_releaseAssembler hsound.indexed hindex
  settled other := by
    rw [slot_releaseAssembler hsound.indexed hindex]
    split
    · rfl
    · exact hsound.settled other
  wellFormed other := by
    rw [slot_releaseAssembler hsound.indexed hindex]
    split
    · exact AssemblerSlot.wellFormed_blank
    · exact hsound.wellFormed other
  unused other hother := by
    rw [slot_releaseAssembler hsound.indexed hindex]
    split
    · rfl
    · exact hsound.unused other hother
  charged := hsound.charged.releaseAssembler hsound.indexed hindex

/-! ### Growing a slot -/

/-- A growth that fails leaves the slots and their charge alone; one that succeeds changes
one slot. -/
theorem growAssembler_cases (store : AssemblerStore) (index symbols size : Nat)
    (allocates : Bool) :
    ((store.growAssembler index symbols size allocates).2 = false ∧
        (store.growAssembler index symbols size allocates).1.pool = store.pool ∧
        (store.growAssembler index symbols size allocates).1.memory.bytes =
          store.memory.bytes) ∨
      ∃ grown, (store.growAssembler index symbols size allocates).2 = true ∧
        (store.pool.slot index).grow symbols size allocates = some grown ∧
        (store.growAssembler index symbols size allocates).1.pool =
          store.pool.setSlot index grown := by
  unfold growAssembler
  extract_lets slot oldBytes newBytes usedWithoutOld additionalBytes raised
  split
  · exact .inl ⟨rfl, rfl, rfl⟩
  · cases hgrown : slot.grow symbols size allocates with
    | none => exact .inl ⟨rfl, rfl, rfl⟩
    | some grown => exact .inr ⟨grown, rfl, rfl, rfl⟩

theorem sameAccount_growAssembler (store : AssemblerStore) (index symbols size : Nat)
    (allocates : Bool) :
    SameAccount store.memory (store.growAssembler index symbols size allocates).1.memory := by
  unfold growAssembler
  extract_lets slot oldBytes newBytes usedWithoutOld additionalBytes raised
  split
  · exact ⟨rfl, rfl⟩
  · split <;> exact ⟨rfl, rfl⟩

theorem Charged.growAssembler {store : AssemblerStore} (hcharged : store.Charged)
    (hindexed : store.pool.Indexed) (hindex : index < hardMaxAssemblers)
    (hformed : (store.pool.slot index).WellFormed) (symbols size : Nat) (allocates : Bool) :
    (store.growAssembler index symbols size allocates).1.Charged := by
  have hlt := hindexed.lt_length hindex
  have hbytes := hcharged.bytes_eq
  have hle := hcharged.bytes_le
  unfold AssemblerStore.growAssembler
  extract_lets slot oldBytes newBytes usedWithoutOld additionalBytes raised
  split
  · exact ⟨hbytes, hle, hcharged.peak_le⟩
  next hroom =>
  have hadditional : store.memory.bytes + additionalBytes ≤ store.memory.maxBytes := by omega
  have hpeak : max store.memory.peak (store.heldBytes + additionalBytes) ≤
      store.memory.maxBytes := Nat.max_le.mpr ⟨hcharged.peak_le, hbytes ▸ hadditional⟩
  split
  · exact ⟨hbytes, hle, hpeak⟩
  next grown hgrown =>
  have hgrows := hformed.grow hgrown
  have hold : oldBytes ≤ store.memory.bytes := by
    rw [hbytes]
    exact Nat.le_trans (Totals.le_total AssemblerSlot.capacityBytes
      (List.mem_of_getElem? (getElem?_slot hlt))) (Nat.le_add_left _ _)
  have hused : usedWithoutOld = store.memory.bytes - oldBytes := if_pos hold
  have hcapacity : (store.pool.setSlot index grown).capacityBytes + oldBytes =
      store.pool.capacityBytes + grown.capacityBytes := capacityBytes_setSlot hlt grown
  have hgrownBytes : grown.capacityBytes ≤ oldBytes + additionalBytes := by
    rw [hgrows.bytes_eq]
    change _ ≤ oldBytes + if slot.tooSmall symbols size = true then newBytes else 0
    split
    · exact Nat.le_add_left _ _
    · exact Nat.le_refl _
  refine ⟨?_, ?_, hpeak⟩
  · change usedWithoutOld + grown.capacityBytes =
      store.memory.elsewhere + (store.pool.setSlot index grown).capacityBytes
    unfold heldBytes at hbytes
    omega
  · change usedWithoutOld + grown.capacityBytes ≤ store.memory.maxBytes
    omega

/-! ### Opening a slot -/

/-- A store that differs from a sound one in a slot which is in no chain. -/
structure Vacated (maxAssemblers index : Nat) (before store : AssemblerStore) : Prop where
  indexed : store.pool.Indexed
  wellFormed : ∀ other, (store.pool.slot other).WellFormed
  charged : store.Charged
  free : (store.pool.slot index).owned = false
  kept : ∀ other, other ≠ index → store.pool.slot other = before.pool.slot other
  account : SameAccount before.memory store.memory

namespace Vacated

variable {before store : AssemblerStore} {maxAssemblers index : Nat}

theorem unindexed (hsound : Sound maxAssemblers before) (hindex : index < hardMaxAssemblers) :
    Vacated maxAssemblers index before
      { before with pool := before.pool.unindexAssembler index } where
  indexed := hsound.indexed.unindexAssembler hindex
  wellFormed other := by
    change ((before.pool.unindexAssembler index).slot other).WellFormed
    rw [hsound.indexed.slot_unindexAssembler hindex]
    split
    · exact (hsound.wellFormed index).disown false
    · exact hsound.wellFormed other
  charged := by
    refine ⟨?_, hsound.charged.bytes_le, hsound.charged.peak_le⟩
    change _ = before.memory.elsewhere + (before.pool.unindexAssembler index).capacityBytes
    rw [capacityBytes_unindexAssembler hsound.indexed hindex]
    exact hsound.charged.bytes_eq
  free := by
    change ((before.pool.unindexAssembler index).slot index).owned = false
    rw [hsound.indexed.slot_unindexAssembler hindex, if_pos rfl]
  kept other hother := by
    change (before.pool.unindexAssembler index).slot other = _
    rw [hsound.indexed.slot_unindexAssembler hindex, if_neg hother]
  account := .refl _

theorem released (hvacated : Vacated maxAssemblers index before store)
    (hindex : index < hardMaxAssemblers) :
    Vacated maxAssemblers index before (store.releaseAssembler index) where
  indexed := indexed_releaseAssembler hvacated.indexed hindex
  wellFormed other := by
    rw [slot_releaseAssembler hvacated.indexed hindex]
    split
    · exact AssemblerSlot.wellFormed_blank
    · exact hvacated.wellFormed other
  charged := hvacated.charged.releaseAssembler hvacated.indexed hindex
  free := by
    rw [slot_releaseAssembler hvacated.indexed hindex, if_pos rfl]
  kept other hother := by
    rw [slot_releaseAssembler hvacated.indexed hindex, if_neg hother]
    exact hvacated.kept other hother
  account := ⟨hvacated.account.maxBytes, hvacated.account.elsewhere⟩

theorem grown (hvacated : Vacated maxAssemblers index before store)
    (hindex : index < hardMaxAssemblers) (symbols size : Nat) (allocates : Bool) :
    Vacated maxAssemblers index before
      (store.growAssembler index symbols size allocates).1 := by
  have hlt := hvacated.indexed.lt_length hindex
  have hformed := hvacated.wellFormed index
  have hcharged := hvacated.charged.growAssembler hvacated.indexed hindex hformed symbols size
    allocates
  have haccount := hvacated.account.trans
    (sameAccount_growAssembler store index symbols size allocates)
  rcases growAssembler_cases store index symbols size allocates with
    ⟨-, hpool, -⟩ | ⟨grown, -, hgrown, hpool⟩
  · exact ⟨hpool ▸ hvacated.indexed, hpool ▸ hvacated.wellFormed, hcharged,
      hpool ▸ hvacated.free, hpool ▸ hvacated.kept, haccount⟩
  · have hgrows := hformed.grow hgrown
    have hfree : grown.owned = false := by
      rcases hgrows.kept with rfl | ⟨_, _, rfl⟩
      · exact hvacated.free
      · exact hvacated.free
    refine ⟨?_, fun other => ?_, hcharged, ?_, fun other hother => ?_, haccount⟩
    · rw [hpool]
      refine hvacated.indexed.setSlot hindex (hfree.trans hvacated.free.symm) fun howned => ?_
      rw [hfree] at howned
      cases howned
    · rw [hpool, slot_setSlot hlt]
      split
      · exact hgrows.wellFormed
      · exact hvacated.wellFormed other
    · rw [hpool, slot_setSlot_self hlt]
      exact hfree
    · rw [hpool, slot_setSlot_of_ne hlt _ hother]
      exact hvacated.kept other hother

/-- Where the slot is left blank, all is sound again. -/
theorem sound_of_blank (hvacated : Vacated maxAssemblers index before store)
    (hsound : Sound maxAssemblers before) (hblank : store.pool.slot index = {}) :
    Sound maxAssemblers store where
  indexed := hvacated.indexed
  settled other := by
    by_cases hother : other = index
    · rw [hother, hblank]
      rfl
    · rw [hvacated.kept other hother]
      exact hsound.settled other
  wellFormed := hvacated.wellFormed
  unused other hother := by
    by_cases hsame : other = index
    · rw [hsame, hblank]
    · rw [hvacated.kept other hsame]
      exact hsound.unused other hother
  charged := hvacated.charged

/-- Where the slot has room, it can be given to an object that no other slot holds. -/
theorem started (hvacated : Vacated maxAssemblers index before store)
    (hsound : Sound maxAssemblers before) (hindex : index < hardMaxAssemblers)
    (hinside : index < maxAssemblers)
    (hroom : (store.pool.slot index).tooSmall header.totalSymbols header.symbolSize = false)
    (hpositive : 0 < header.totalSymbols)
    (hfresh : ∀ other, (before.pool.slot other).owned = true → other ≠ index →
      (before.pool.slot other).isObject header.trackAlias header.groupId header.objectId =
        false) (now : Nat) :
    let opened := (store.pool.setSlot index
      ((store.pool.slot index).start header now)).indexAssembler index
    Sound maxAssemblers { store with pool := opened } ∧
      (∀ other, other ≠ index → opened.slot other = before.pool.slot other) ∧
      opened.slot index =
        { (store.pool.slot index).start header now with owned := true } := by
  intro opened
  have hlt := hvacated.indexed.lt_length hindex
  have hfree : ((store.pool.slot index).start header now).owned = false := hvacated.free
  have hset : (store.pool.setSlot index
      ((store.pool.slot index).start header now)).Indexed := by
    refine hvacated.indexed.setSlot hindex (hfree.trans hvacated.free.symm) fun howned => ?_
    rw [hfree] at howned
    cases howned
  have hself := slot_setSlot_self hlt ((store.pool.slot index).start header now)
  have hothers : ∀ other, other ≠ index →
      (store.pool.setSlot index ((store.pool.slot index).start header now)).slot other =
        before.pool.slot other := by
    intro other hother
    rw [slot_setSlot_of_ne hlt _ hother]
    exact hvacated.kept other hother
  have hindexed : opened.Indexed := by
    refine hset.indexAssembler hindex (by rw [hself]; exact hfree) fun other howned => ?_
    have hother : other ≠ index := by
      rintro rfl
      rw [hself, hfree] at howned
      cases howned
    rw [hothers other hother] at howned ⊢
    rw [hself]
    exact hfresh other howned hother
  have hslot : ∀ other, opened.slot other = if other = index then
      { (store.pool.slot index).start header now with owned := true }
    else before.pool.slot other := by
    intro other
    change ((store.pool.setSlot index ((store.pool.slot index).start header now)).setSlot index
      _).slot other = _
    rw [slot_setSlot (hset.lt_length hindex), hself]
    split
    · rfl
    · next hother => exact hothers other hother
  refine ⟨⟨⟨hindexed, fun other => ?_, fun other => ?_, fun other hother => ?_⟩, ?_⟩,
    fun other hother => (hslot other).trans (if_neg hother), (hslot index).trans (if_pos rfl)⟩
  · change (opened.slot other).owned = (opened.slot other).live
    rw [hslot]
    split
    · exact (decide_eq_true hpositive).symm
    · exact hsound.settled other
  · change (opened.slot other).WellFormed
    rw [hslot]
    split
    · exact ((hvacated.wellFormed index).start hroom now).disown true
    · exact hsound.wellFormed other
  · change opened.slot other = {}
    rw [hslot, if_neg (by omega)]
    exact hsound.unused other hother
  · refine ⟨?_, hvacated.charged.bytes_le, hvacated.charged.peak_le⟩
    have hcapacity : opened.capacityBytes = store.pool.capacityBytes := by
      have hfirst := capacityBytes_setSlot hlt ((store.pool.slot index).start header now)
      have hsecond := capacityBytes_setSlot (hset.lt_length hindex)
        { (store.pool.setSlot index ((store.pool.slot index).start header now)).slot index with
          owned := true }
      have hkept : ((store.pool.slot index).start header now).capacityBytes =
        (store.pool.slot index).capacityBytes := rfl
      have hkept' : AssemblerSlot.capacityBytes
          { (store.pool.setSlot index ((store.pool.slot index).start header now)).slot index with
            owned := true } =
          ((store.pool.setSlot index
            ((store.pool.slot index).start header now)).slot index).capacityBytes := rfl
      rw [hkept] at hfirst
      rw [hkept'] at hsecond
      exact (Nat.add_right_cancel hsecond).trans (Nat.add_right_cancel hfirst)
    change _ = store.memory.elsewhere + opened.capacityBytes
    rw [hcapacity]
    exact hvacated.charged.bytes_eq

end Vacated

/-- Opening a slot leaves the others alone, and leaves the slot blank or with the object. -/
theorem Sound.openSlot {store : AssemblerStore} {header : FecHeader}
    (hsound : Sound maxAssemblers store) (hindex : index < hardMaxAssemblers)
    (hinside : index < maxAssemblers) (hpositive : 0 < header.totalSymbols)
    (hfresh : store.pool.findAssembler header.trackAlias header.groupId header.objectId = none)
    (now : Nat) (allocates : Bool) :
    let opened := store.openSlot index header now allocates
    Sound maxAssemblers opened.1 ∧ SameAccount store.memory opened.1.memory ∧
      (∀ other, other ≠ index → opened.1.pool.slot other = store.pool.slot other) ∧
      (opened.2 = false ∧ opened.1.pool.slot index = {} ∨
        opened.2 = true ∧ ∃ room : AssemblerSlot, opened.1.pool.slot index =
          { room.start header now with owned := true }) := by
  have habsent := hsound.indexed.findAssembler_eq_none_iff.mp hfresh
  have hvacated := Vacated.unindexed hsound hindex
  unfold AssemblerStore.openSlot
  extract_lets unindexed prepared
  have hprepared : Vacated maxAssemblers index store prepared.1 ∧ (prepared.2 = true →
      (prepared.1.pool.slot index).tooSmall header.totalSymbols header.symbolSize = false) := by
    simp only [prepared]
    split
    · have hreleased := hvacated.released hindex
      refine ⟨hreleased.grown hindex _ _ _, fun hdone => ?_⟩
      rcases growAssembler_cases (unindexed.releaseAssembler index) index header.totalSymbols
          header.symbolSize allocates with ⟨hfailed, -, -⟩ | ⟨grown, -, hgrown, hpool⟩
      · rw [hfailed] at hdone
        cases hdone
      · rw [hpool, slot_setSlot_self (hreleased.indexed.lt_length hindex)]
        exact ((hreleased.wellFormed index).grow hgrown).roomy
    · next hroom => exact ⟨hvacated, fun _ => Bool.not_eq_true _ |>.mp hroom⟩
  obtain ⟨ready, done⟩ := prepared
  obtain ⟨hready, hroom⟩ := hprepared
  cases done with
  | false =>
      have hreleased := hready.released hindex
      have hblank : (ready.releaseAssembler index).pool.slot index = {} := by
        rw [slot_releaseAssembler hready.indexed hindex, if_pos rfl]
      exact ⟨hreleased.sound_of_blank hsound hblank, hreleased.account, hreleased.kept,
        .inl ⟨rfl, hblank⟩⟩
  | true =>
      obtain ⟨hopened, hothers, hself⟩ := hready.started hsound hindex hinside (hroom rfl)
        hpositive (fun other howned _ => habsent other howned) now
      exact ⟨hopened, hready.account, hothers, .inr ⟨rfl, _, hself⟩⟩

/-! ### Filling a slot -/

/-- A live slot may change in everything but its object, its capacity and its total. -/
theorem Sound.updateSlot {store : AssemblerStore} (hsound : Sound maxAssemblers store)
    (hlive : (store.pool.slot index).live = true) {update : AssemblerSlot → AssemblerSlot}
    (hformed : (update (store.pool.slot index)).WellFormed)
    (hcapacity : (update (store.pool.slot index)).capacityBytes =
      (store.pool.slot index).capacityBytes)
    (howned : (update (store.pool.slot index)).owned = (store.pool.slot index).owned)
    (hstill : (update (store.pool.slot index)).live = true)
    (hobject : (update (store.pool.slot index)).isObject (store.pool.slot index).trackAlias
      (store.pool.slot index).groupId (store.pool.slot index).objectId = true) :
    Sound maxAssemblers (store.updateSlot index update) := by
  have hmine : (store.pool.slot index).owned = true := (hsound.settled index).trans hlive
  have hindex := hsound.indexed.lt_of_owned hmine
  have hlt := hsound.indexed.lt_length hindex
  have hslot : ∀ other, (store.updateSlot index update).pool.slot other =
      if other = index then update (store.pool.slot index) else store.pool.slot other :=
    slot_setSlot hlt _
  refine ⟨⟨hsound.indexed.setSlot hindex howned fun _ => hobject, fun other => ?_,
    fun other => ?_, fun other hother => ?_⟩, ?_⟩
  · rw [hslot]
    split
    · exact (howned.trans hmine).trans hstill.symm
    · exact hsound.settled other
  · rw [hslot]
    split
    · exact hformed
    · exact hsound.wellFormed other
  · have hapart : other ≠ index := by
      rintro rfl
      rw [hsound.unused other hother] at hlive
      cases hlive
    rw [hslot, if_neg hapart]
    exact hsound.unused other hother
  · refine ⟨?_, hsound.charged.bytes_le, hsound.charged.peak_le⟩
    have htotal := capacityBytes_setSlot hlt (update (store.pool.slot index))
    rw [hcapacity] at htotal
    change _ = store.memory.elsewhere + (store.pool.setSlot index _).capacityBytes
    rw [Nat.add_right_cancel htotal]
    exact hsound.charged.bytes_eq

/-- What raising the total of a slot leaves: the slot as it was, or with its symbols in
larger buffers. -/
def Enlarged (slot enlarged : AssemblerSlot) (total : Nat) : Prop :=
  (total ≤ slot.totalSymbols ∧ enlarged = slot) ∨
    ∃ grown size, slot.totalSymbols < total ∧ AssemblerSlot.Grows slot grown total size ∧
      enlarged = { grown with totalSymbols := total }

theorem Sound.enlarge {store : AssemblerStore} (hsound : Sound maxAssemblers store)
    (hlive : (store.pool.slot index).live = true) (total size : Nat) (allocates : Bool) :
    let result := store.enlarge index total size allocates
    Sound maxAssemblers result.1 ∧ SameAccount store.memory result.1.memory ∧
      (result.2 = false ∧ result.1.pool = store.pool ∧
          result.1.memory.bytes = store.memory.bytes ∨
        result.2 = true ∧
          (∀ other, other ≠ index → result.1.pool.slot other = store.pool.slot other) ∧
          Enlarged (store.pool.slot index) (result.1.pool.slot index) total) := by
  intro result
  have hmine : (store.pool.slot index).owned = true := (hsound.settled index).trans hlive
  have hindex := hsound.indexed.lt_of_owned hmine
  have hlt := hsound.indexed.lt_length hindex
  have hformed := hsound.wellFormed index
  simp only [result, AssemblerStore.enlarge]
  split
  · next hlarger =>
    have hcharged := hsound.charged.growAssembler hsound.indexed hindex hformed total size
      allocates
    have haccount := sameAccount_growAssembler store index total size allocates
    have hcases := growAssembler_cases store index total size allocates
    generalize store.growAssembler index total size allocates = attempt at hcharged haccount hcases ⊢
    obtain ⟨tried, done⟩ := attempt
    rcases hcases with ⟨hfailed, hpool, hbytes⟩ | ⟨grown, hdone, hgrown, hpool⟩
    · obtain rfl : done = false := hfailed
      obtain ⟨pool, memory⟩ := tried
      obtain rfl : pool = store.pool := hpool
      exact ⟨⟨hsound.toSound, hcharged⟩,
        haccount, .inl ⟨rfl, rfl, hbytes⟩⟩
    · obtain rfl : done = true := hdone
      obtain ⟨pool, memory⟩ := tried
      obtain rfl : pool = store.pool.setSlot index grown := hpool
      have hgrows := hformed.grow hgrown
      have hself := slot_setSlot_self hlt grown
      have hkept : grown.owned = true ∧ grown.isObject (store.pool.slot index).trackAlias
          (store.pool.slot index).groupId (store.pool.slot index).objectId = true ∧
          grown.totalSymbols = (store.pool.slot index).totalSymbols := by
        rcases hgrows.kept with rfl | ⟨_, _, rfl⟩
        · exact ⟨hmine, AssemblerSlot.isObject_iff.mpr ⟨rfl, rfl, rfl⟩, rfl⟩
        · exact ⟨hmine, AssemblerSlot.isObject_iff.mpr ⟨rfl, rfl, rfl⟩, rfl⟩
      have hsecond : Sound maxAssemblers { pool := store.pool.setSlot index grown, memory } := by
        refine ⟨⟨hsound.indexed.setSlot hindex (hkept.1.trans hmine.symm) fun _ => hkept.2.1,
          fun other => ?_, fun other => ?_, fun other hother => ?_⟩, hcharged⟩
        · rw [slot_setSlot hlt]
          split
          · refine hkept.1.trans (Eq.symm ?_)
            rw [AssemblerSlot.live, hkept.2.2]
            exact hlive
          · exact hsound.settled other
        · rw [slot_setSlot hlt]
          split
          · exact hgrows.wellFormed
          · exact hsound.wellFormed other
        · have hapart : other ≠ index := by
            rintro rfl
            rw [hsound.unused other hother] at hlive
            cases hlive
          rw [slot_setSlot_of_ne hlt _ hapart]
          exact hsound.unused other hother
      have hwide := (AssemblerSlot.tooSmall_eq_false hgrows.roomy).2.1
      have hraised : AssemblerSlot.WellFormed { grown with totalSymbols := total } :=
        ⟨hgrows.wellFormed.unallocated, hgrows.wellFormed.allocated, hwide,
          hgrows.wellFormed.size_le, fun other hother => hgrows.wellFormed.unreceived other
            (by rw [hkept.2.2]; exact Nat.le_trans (Nat.le_of_lt hlarger) hother)⟩
      have hstill : (decide (0 < total)) = true := decide_eq_true (by omega)
      have hgrownLive : ((store.pool.setSlot index grown).slot index).live = true := by
        rw [hself, AssemblerSlot.live, hkept.2.2]
        exact hlive
      have hthird : Sound maxAssemblers
          (AssemblerStore.updateSlot { pool := store.pool.setSlot index grown, memory } index
            fun slot => { slot with totalSymbols := total }) :=
        hsecond.updateSlot hgrownLive (by rw [hself]; exact hraised) rfl rfl hstill
          (AssemblerSlot.isObject_iff.mpr ⟨rfl, rfl, rfl⟩)
      have hsecondLt := hsecond.indexed.lt_length hindex
      refine ⟨hthird, haccount, .inr ⟨rfl, fun other hother => ?_, .inr ⟨grown, size, hlarger,
        hgrows, ?_⟩⟩⟩
      · exact (slot_setSlot_of_ne hsecondLt _ hother).trans (slot_setSlot_of_ne hlt _ hother)
      · change ((store.pool.setSlot index grown).setSlot index _).slot index = _
        rw [slot_setSlot_self hsecondLt, hself]
  · next hsmaller =>
    exact ⟨hsound, .refl _, .inr ⟨rfl, fun _ _ => rfl, .inl ⟨Nat.not_lt.mp hsmaller, rfl⟩⟩⟩

end AssemblerStore

end Qlinq
