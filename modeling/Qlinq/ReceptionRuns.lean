import Qlinq.Eviction
import Qlinq.Lib.Machine

namespace Qlinq

/-! The assemblers of all connections over any run: their memory, their index and the window
they are chosen from. -/

open AssemblerStore (SameAccount)

/-- What holds of a connection's receiver whatever the account of the memory is. -/
structure Receiver.Sound (limits : AssemblerLimits) (receiver : Receiver) : Prop where
  pool : AssemblerPool.Sound limits.maxAssemblers receiver.pool
  chained : receiver.completed.Chained
  limit_le : receiver.window.limit ≤ limits.maxAssemblers
  inside : ∀ index, (receiver.pool.slot index).live = true → index < receiver.window.limit

theorem Receiver.sound_init (limits : AssemblerLimits) (maxFecObjectSize : Nat) :
    Receiver.Sound limits { maxFecObjectSize := maxFecObjectSize } where
  pool := AssemblerPool.sound_init limits.maxAssemblers
  chained := CompletedRing.chained_init
  limit_le := Nat.zero_le _
  inside index hlive := by
    have hblank : (({} : AssemblerPool).slot index).live = true := hlive
    rw [AssemblerPool.slot_init] at hblank
    cases hblank

theorem AssemblerPool.capacityBytes_eq_zero {pool : AssemblerPool}
    (hblank : ∀ index, pool.slot index = {}) : pool.capacityBytes = 0 := by
  apply List.sum_eq_zero
  intro bytes hbytes
  obtain ⟨slot, hslot, rfl⟩ := List.mem_map.mp hbytes
  obtain ⟨index, hindex, rfl⟩ := List.mem_iff_getElem.mp hslot
  have hsame : pool.slot index = pool.slots[index] := by
    rw [AssemblerPool.slot, List.getD_eq_getElem?_getD, List.getElem?_eq_getElem hindex]
    rfl
  rw [← hsame, hblank]
  rfl

namespace Reception

variable {limits : AssemblerLimits} {s : Reception}

theorem Sound.receiver (hsound : s.Sound limits) : s.receiver.Sound limits where
  pool := hsound.store.toSound
  chained := hsound.chained
  limit_le := hsound.limit_le
  inside := hsound.inside

/-- The slots that a sweep picks are blank after it, and the others as they were. -/
theorem sound_releaseWhere (hsound : s.Sound limits) (picks : AssemblerSlot → Bool) :
    let swept := s.releaseWhere limits.maxAssemblers picks
    swept.Sound limits ∧ SameAccount s.memory swept.memory ∧
      swept.receiver.window = s.receiver.window ∧
      ∀ index, swept.slot index =
        if index < limits.maxAssemblers ∧ picks (s.slot index) then {} else s.slot index := by
  have hinside : ∀ index ∈ (List.range limits.maxAssemblers).filter
      (fun index => picks (s.slot index)), index < hardMaxAssemblers := by
    intro index hindex
    exact Nat.lt_of_lt_of_le (List.mem_range.mp (List.mem_filter.mp hindex).1) limits.le_hardMax
  obtain ⟨hwell, hrests⟩ := @rests_releaseAll _ _ 0 _ hsound.toWell _ hinside
    (fun _ hslot => .inr hslot)
  refine ⟨hsound.continues hwell hrests.toContinues, hrests.account, hrests.window,
    fun index => ?_⟩
  have hslot := (hsound.store.releaseAll hinside).2.2 index
  simp only [List.mem_filter, List.mem_range] at hslot
  exact hslot

end Reception

/-- Where a connection is after an operation, unless that disconnects it. -/
def ReceptionOp.moved : ReceptionOp → Nat → Option Nat
  | .disconnect gone, conn =>
      if gone = conn then none else if gone < conn then some (conn - 1) else some conn
  | _, conn => some conn

namespace ReceptionEndpoint

/-- Where a connection is after a run, unless the run disconnects it. -/
def follow : List ReceptionOp → Nat → Option Nat
  | [], conn => some conn
  | op :: rest, conn => (op.moved conn).bind (follow rest)

/-- The account is that of what all receivers hold, and every receiver is sound. -/
structure Sound (e : ReceptionEndpoint) : Prop where
  bytes_eq : e.bytes = e.heldBytes
  bytes_le : e.bytes ≤ e.limits.maxMemoryBytes
  peak_le : e.peak ≤ e.limits.maxMemoryBytes
  receivers : ∀ receiver ∈ e.receivers, receiver.Sound e.limits

variable {e : ReceptionEndpoint} {conn moved : Nat} {receiver : Receiver}

theorem sound_init (limits : AssemblerLimits) :
    Sound { limits := limits, receivers := [], bytes := 0, resourceLimitErrors := 0, peak := 0 } where
  bytes_eq := rfl
  bytes_le := Nat.zero_le _
  peak_le := Nat.zero_le _
  receivers _ hmem := nomatch hmem

theorem Sound.focus (hsound : e.Sound) (hmem : receiver ∈ e.receivers) :
    (e.focus receiver).Sound e.limits := by
  have hreceiver := hsound.receivers receiver hmem
  have hheld : receiver.pool.capacityBytes ≤ e.heldBytes :=
    Totals.le_total (fun receiver => receiver.pool.capacityBytes) hmem
  have hcharged : (e.focus receiver).store.Charged := by
    refine ⟨?_, hsound.bytes_le, hsound.peak_le⟩
    change e.bytes = e.heldBytes - receiver.pool.capacityBytes + receiver.pool.capacityBytes
    rw [Nat.sub_add_cancel hheld]
    exact hsound.bytes_eq
  exact ⟨⟨⟨hreceiver.pool, hcharged⟩, hreceiver.chained⟩, hreceiver.limit_le, hreceiver.inside⟩

theorem Sound.settle (hsound : e.Sound) (hconn : e.receivers[conn]? = some receiver)
    (hs : s.Sound e.limits) (haccount : SameAccount (e.focus receiver).memory s.memory) :
    (e.settle conn s).Sound := by
  have hcharged := hs.store.charged
  have hheld : receiver.pool.capacityBytes ≤ e.heldBytes :=
    Totals.le_total (fun receiver => receiver.pool.capacityBytes) (List.mem_of_getElem? hconn)
  have hmax : s.memory.maxBytes = e.limits.maxMemoryBytes := haccount.maxBytes
  refine ⟨?_, hmax ▸ hcharged.bytes_le, hmax ▸ hcharged.peak_le, ?_⟩
  · have htotal := Totals.total_set (fun receiver => receiver.pool.capacityBytes) hconn s.receiver
    have helsewhere : s.memory.elsewhere = e.heldBytes - receiver.pool.capacityBytes :=
      haccount.elsewhere
    have hbytes : s.memory.bytes = s.memory.elsewhere + s.receiver.pool.capacityBytes :=
      hcharged.bytes_eq
    have hset : (e.settle conn s).heldBytes + receiver.pool.capacityBytes =
        e.heldBytes + s.receiver.pool.capacityBytes := htotal
    change s.memory.bytes = (e.settle conn s).heldBytes
    omega
  · intro other hother
    rcases List.mem_or_eq_of_mem_set hother with hkept | rfl
    · exact hsound.receivers other hkept
    · exact hs.receiver

theorem Sound.update (hsound : e.Sound) (conn : Nat) {work : Reception → Reception}
    (hwork : ∀ s : Reception, s.Sound e.limits →
      (work s).Sound e.limits ∧ SameAccount s.memory (work s).memory) :
    (e.update conn work).Sound := by
  unfold ReceptionEndpoint.update
  split
  · exact hsound
  · next receiver hconn =>
    obtain ⟨hs, haccount⟩ := hwork _ (hsound.focus (List.mem_of_getElem? hconn))
    exact hsound.settle hconn hs haccount

theorem limits_update (e : ReceptionEndpoint) (conn : Nat) (work : Reception → Reception) :
    (e.update conn work).limits = e.limits := by
  unfold ReceptionEndpoint.update
  split <;> rfl

theorem limits_step (e : ReceptionEndpoint) (op : ReceptionOp) : (e.step op).limits = e.limits := by
  cases op with
  | connect maxFecObjectSize => rfl
  | datagram conn env datagram => exact limits_update _ _ _
  | retire conn a groupId finalObjectId => exact limits_update _ _ _
  | unsubscribe conn a => exact limits_update _ _ _
  | expire conn nowMs timeoutMs => exact limits_update _ _ _
  | disconnect conn => exact limits_update _ _ _

theorem Sound.releaseWhere (hsound : e.Sound) (conn : Nat) (picks : AssemblerSlot → Bool) :
    (e.update conn (·.releaseWhere e.limits.maxAssemblers picks)).Sound :=
  hsound.update conn fun s hs => by
    obtain ⟨hswept, haccount, -, -⟩ := Reception.sound_releaseWhere hs picks
    exact ⟨hswept, haccount⟩

theorem Sound.erase (hsound : e.Sound) (hblank : ∀ receiver, e.receivers[conn]? = some receiver →
    receiver.pool.capacityBytes = 0) :
    Sound { e with receivers := e.receivers.eraseIdx conn } := by
  refine ⟨hsound.bytes_eq.trans ?_, hsound.bytes_le, hsound.peak_le, fun other hother =>
    hsound.receivers other (List.mem_of_mem_eraseIdx hother)⟩
  change Totals.total _ e.receivers = Totals.total _ (e.receivers.eraseIdx conn)
  cases hconn : e.receivers[conn]? with
  | none => rw [List.eraseIdx_of_length_le (List.getElem?_eq_none_iff.mp hconn)]
  | some receiver =>
      have herased := Totals.total_eraseIdx (fun receiver => receiver.pool.capacityBytes) hconn
      rw [hblank receiver hconn, Nat.add_zero] at herased
      exact herased.symm

/-- A connection that goes has given its memory back. -/
theorem Sound.disconnect (hsound : e.Sound) (conn : Nat) : (e.step (.disconnect conn)).Sound := by
  refine (hsound.releaseWhere conn fun _ => true).erase fun swept hswept => ?_
  cases hconn : e.receivers[conn]? with
  | none =>
      rw [ReceptionEndpoint.update, hconn] at hswept
      exact nomatch hconn.symm.trans hswept
  | some receiver =>
      have hs := hsound.focus (List.mem_of_getElem? hconn)
      obtain ⟨-, -, -, hslots⟩ := Reception.sound_releaseWhere hs fun _ => true
      have hlength := (List.getElem?_eq_some_iff.mp hconn).1
      rw [ReceptionEndpoint.update, hconn] at hswept
      obtain rfl := Option.some.inj ((List.getElem?_set_self hlength).symm.trans hswept)
      apply AssemblerPool.capacityBytes_eq_zero
      intro index
      refine (hslots index).trans ?_
      split
      · rfl
      · next houtside => exact hs.store.unused index (by simpa using houtside)

/-- Every operation keeps the memory's account and every connection's receiver sound. -/
theorem Sound.step (hsound : e.Sound) (op : ReceptionOp) : (e.step op).Sound := by
  cases op with
  | connect maxFecObjectSize =>
      refine ⟨hsound.bytes_eq.trans ?_, hsound.bytes_le, hsound.peak_le, fun receiver hmem => ?_⟩
      · refine Eq.trans ?_ (Totals.total_concat e.receivers _).symm
        have hblank : ({} : AssemblerPool).capacityBytes = 0 :=
          AssemblerPool.capacityBytes_eq_zero AssemblerPool.slot_init
        change e.heldBytes = e.heldBytes + ({} : AssemblerPool).capacityBytes
        rw [hblank, Nat.add_zero]
      · rcases List.mem_append.mp hmem with hold | hnew
        · exact hsound.receivers receiver hold
        · obtain rfl := List.mem_singleton.mp hnew
          exact Receiver.sound_init e.limits maxFecObjectSize
  | datagram conn env datagram =>
      exact hsound.update conn fun s hs => by
        obtain ⟨hreceived, hreceives⟩ := Reception.receives_receiveDatagram hs env datagram
        exact ⟨hreceived, hreceives.account⟩
  | retire conn a groupId finalObjectId => exact hsound.releaseWhere conn _
  | unsubscribe conn a => exact hsound.releaseWhere conn _
  | expire conn nowMs timeoutMs => exact hsound.releaseWhere conn _
  | disconnect conn => exact hsound.disconnect conn

theorem sound_run (hsound : e.Sound) (ops : List ReceptionOp) :
    (Machine.run step e ops).Sound :=
  Machine.invariant_run (fun _ op hsound _ => hsound.step op) hsound (Machine.along_true e ops)

theorem limits_run (e : ReceptionEndpoint) (ops : List ReceptionOp) :
    (Machine.run step e ops).limits = e.limits := by
  induction ops generalizing e with
  | nil => rfl
  | cons op rest ih => exact (ih (e.step op)).trans (limits_step e op)

/-! ### Windows over a run -/

theorem window_update (hsound : e.Sound) (hconn : e.receivers[conn]? = some receiver)
    (other : Nat) {work : Reception → Reception}
    (hwork : ∀ s : Reception, s.Sound e.limits →
      s.receiver.window.limit ≤ (work s).receiver.window.limit) :
    ∃ later, (e.update other work).receivers[conn]? = some later ∧
      receiver.window.limit ≤ later.window.limit := by
  cases hbusy : e.receivers[other]? with
  | none => exact ⟨receiver, by rw [update, hbusy]; exact hconn, Nat.le_refl _⟩
  | some busy =>
    rw [update, hbusy]
    change ∃ later, (e.receivers.set other _)[conn]? = some later ∧ _
    by_cases hsame : other = conn
    · subst hsame
      obtain rfl := Option.some.inj (hbusy.symm.trans hconn)
      exact ⟨_, List.getElem?_set_self (List.getElem?_eq_some_iff.mp hconn).1,
        hwork _ (hsound.focus (List.mem_of_getElem? hconn))⟩
    · exact ⟨receiver, (List.getElem?_set_ne hsame).trans hconn, Nat.le_refl _⟩

theorem window_releaseWhere (hsound : e.Sound) (hconn : e.receivers[conn]? = some receiver)
    (other : Nat) (picks : AssemblerSlot → Bool) :
    ∃ later, (e.update other (·.releaseWhere e.limits.maxAssemblers picks)).receivers[conn]? =
        some later ∧ receiver.window.limit ≤ later.window.limit :=
  window_update hsound hconn other fun s hs => by
    obtain ⟨-, -, hwindow, -⟩ := Reception.sound_releaseWhere hs picks
    exact Nat.le_of_eq (congrArg AssemblerWindow.limit hwindow).symm

/-- No operation narrows the window of a connection that stays. -/
theorem window_step (hsound : e.Sound) (hconn : e.receivers[conn]? = some receiver)
    (op : ReceptionOp) (hmoved : op.moved conn = some moved) :
    ∃ later, (e.step op).receivers[moved]? = some later ∧
      receiver.window.limit ≤ later.window.limit := by
  cases op with
  | connect maxFecObjectSize =>
      obtain rfl := Option.some.inj hmoved
      exact ⟨receiver, List.getElem?_append_left (List.getElem?_eq_some_iff.mp hconn).1 ▸ hconn,
        Nat.le_refl _⟩
  | datagram other env datagram =>
      obtain rfl := Option.some.inj hmoved
      exact window_update hsound hconn other fun s hs =>
        (Reception.receives_receiveDatagram hs env datagram).2.window_le
  | retire other a groupId finalObjectId =>
      obtain rfl := Option.some.inj hmoved
      exact window_releaseWhere hsound hconn other _
  | unsubscribe other a =>
      obtain rfl := Option.some.inj hmoved
      exact window_releaseWhere hsound hconn other _
  | expire other nowMs timeoutMs =>
      obtain rfl := Option.some.inj hmoved
      exact window_releaseWhere hsound hconn other _
  | disconnect gone =>
      obtain ⟨later, hlater, hlimit⟩ := window_releaseWhere hsound hconn gone fun _ => true
      refine ⟨later, ?_, hlimit⟩
      change (List.eraseIdx _ gone)[moved]? = some later
      rw [List.getElem?_eraseIdx]
      simp only [ReceptionOp.moved] at hmoved
      split at hmoved
      · cases hmoved
      split at hmoved
      · next hafter =>
        obtain rfl := Option.some.inj hmoved
        rw [if_neg (by omega), Nat.sub_add_cancel (by omega)]
        exact hlater
      · next hbefore =>
        obtain rfl := Option.some.inj hmoved
        rw [if_pos (by omega)]
        exact hlater

theorem window_run (hsound : e.Sound) (hconn : e.receivers[conn]? = some receiver)
    (ops : List ReceptionOp) (hmoved : follow ops conn = some moved) :
    ∃ later, (Machine.run step e ops).receivers[moved]? = some later ∧
      receiver.window.limit ≤ later.window.limit := by
  induction ops generalizing e conn receiver with
  | nil =>
      obtain rfl := Option.some.inj hmoved
      exact ⟨receiver, hconn, Nat.le_refl _⟩
  | cons op rest ih =>
      obtain ⟨next, hnext, hrest⟩ := Option.bind_eq_some_iff.mp hmoved
      obtain ⟨later, hlater, hlimit⟩ := window_step hsound hconn op hnext
      obtain ⟨last, hlast, hgrown⟩ := ih (hsound.step op) hlater hrest
      exact ⟨last, hlast, Nat.le_trans hlimit hgrown⟩

/-! ### The memory budget -/

/-- Every growth, also of a slot whose object is incomplete, either changes no slot and no
charge or keeps every symbol that was received. -/
structure GrowthKeeps (store : AssemblerStore) (index symbols symbolSize : Nat)
    (allocates : Bool) : Prop where
  rejected : (store.growAssembler index symbols symbolSize allocates).2 = false →
    (store.growAssembler index symbols symbolSize allocates).1.pool = store.pool ∧
      (store.growAssembler index symbols symbolSize allocates).1.memory.bytes =
        store.memory.bytes
  others : ∀ other, other ≠ index →
    (store.growAssembler index symbols symbolSize allocates).1.pool.slot other =
      store.pool.slot other
  received : ∀ symbolIndex,
    ((store.growAssembler index symbols symbolSize allocates).1.pool.slot index).received
        symbolIndex = (store.pool.slot index).received symbolIndex
  symbols : ∀ symbolIndex, (store.pool.slot index).received symbolIndex = true →
    ((store.growAssembler index symbols symbolSize allocates).1.pool.slot index).symbol
        symbolIndex = (store.pool.slot index).symbol symbolIndex

theorem growthKeeps (hsound : AssemblerStore.Sound maxAssemblers store)
    (hindex : index < hardMaxAssemblers) (symbols symbolSize : Nat) (allocates : Bool) :
    GrowthKeeps store index symbols symbolSize allocates := by
  have hlt := hsound.indexed.lt_length hindex
  have hformed := hsound.wellFormed index
  rcases AssemblerStore.growAssembler_cases store index symbols symbolSize allocates with
    ⟨-, hpool, hbytes⟩ | ⟨grown, hdone, hgrown, hpool⟩
  · exact ⟨fun _ => ⟨hpool, hbytes⟩, fun _ _ => by rw [hpool], fun _ => by rw [hpool],
      fun _ _ => by rw [hpool]⟩
  · have hgrows := hformed.grow hgrown
    refine ⟨fun hfailed => absurd (hfailed.symm.trans hdone) (by decide), fun other hother => ?_,
      fun symbolIndex => ?_, fun symbolIndex hreceived => ?_⟩
    · rw [hpool, AssemblerPool.slot_setSlot_of_ne hlt _ hother]
    · rw [hpool, AssemblerPool.slot_setSlot_self hlt]
      exact hgrows.received_eq symbolIndex
    · rw [hpool, AssemblerPool.slot_setSlot_self hlt]
      exact hgrows.symbol_eq symbolIndex (hformed.lt_total hreceived)

/-- The account of the assembler memory is that of the buffers held on all connections, and
with the replacement of a buffer it never passes the limit. -/
theorem assembler_memory_bounded (limits : AssemblerLimits) (ops : List ReceptionOp) :
    let e := Machine.run step { limits := limits } ops
    e.bytes = e.heldBytes ∧ e.heldBytes ≤ limits.maxMemoryBytes ∧
      e.peak ≤ limits.maxMemoryBytes ∧
      ∀ receiver ∈ e.receivers, ∀ index < hardMaxAssemblers,
        (receiver.pool.slot index).WellFormed ∧
          ∀ symbols symbolSize allocates,
            GrowthKeeps (e.focus receiver).store index symbols symbolSize allocates := by
  intro e
  have hsound : e.Sound := sound_run (sound_init limits) ops
  have hlimits : e.limits = limits := limits_run _ ops
  refine ⟨hsound.bytes_eq, hsound.bytes_eq ▸ hlimits ▸ hsound.bytes_le,
    hlimits ▸ hsound.peak_le, fun receiver hmem index hindex => ?_⟩
  have hstore := (hsound.focus hmem).store
  exact ⟨hstore.wellFormed index, growthKeeps hstore hindex⟩

/-! ### The indexes -/

/-- Lookups over the chains of a connection are searches of its slots and of its ring. -/
theorem receive_indexes_sound (limits : AssemblerLimits) (ops : List ReceptionOp)
    (hreceiver : receiver ∈ (Machine.run step { limits := limits } ops).receivers) :
    let pool := receiver.pool
    let ring := receiver.completed
    (∀ a groupId objectId,
        pool.findAssembler a groupId objectId = pool.searchSlots a groupId objectId) ∧
      (∀ index other, (pool.slot index).live = true → (pool.slot other).live = true →
        (pool.slot other).isObject (pool.slot index).trackAlias (pool.slot index).groupId
          (pool.slot index).objectId = true → other = index) ∧
      (∀ index, pool.active.test index = (pool.slot index).live) ∧
      pool.count = pool.liveSlots.length ∧
      (∀ fuel, hardMaxAssemblers < fuel → pool.enumerate fuel 0 = pool.liveSlots) ∧
      (∀ bucket, ∃ indices, HashChains.Chain pool.chains.next (pool.chains.head bucket) indices ∧
        indices.Nodup ∧ ∀ index, index ∈ indices ↔
          (pool.slot index).live = true ∧ pool.bucketAt index = bucket) ∧
      (∀ bucket, ∃ indices, HashChains.Chain ring.chains.next (ring.chains.head bucket) indices ∧
        indices.Nodup ∧ ∀ index, index ∈ indices ↔
          (ring.entry index).map CompletedObject.bucket = some bucket) ∧
      ∀ a generation groupId objectId,
        ring.isDuplicate a generation groupId objectId =
          ring.objects.any fun entry =>
            entry.any (·.isObject a generation groupId objectId) := by
  intro pool ring
  have hsound := (sound_run (sound_init limits) ops).receivers receiver hreceiver
  have hindexed : pool.Indexed := hsound.pool.indexed
  have hsettled : pool.Settled := hsound.pool.settled
  have hchained : ring.Chained := hsound.chained
  refine ⟨hindexed.findAssembler_eq hsettled, fun index other hlive hother => ?_,
    fun index => (hindexed.active index).trans (hsettled index),
    hindexed.count_liveSlots hsettled, fun _ => hindexed.enumerate_liveSlots hsettled,
    fun bucket => ?_, hchained.chains.chained, hchained.isDuplicate_eq⟩
  · rw [← hsettled] at hlive hother
    exact hindexed.unique index other hlive hother
  · obtain ⟨indices, hchain, hnodup, hmem⟩ := hindexed.chains.chained bucket
    refine ⟨indices, hchain, hnodup, fun index => (hmem index).trans ?_⟩
    rw [AssemblerPool.bucketOf, hsettled index]
    cases (pool.slot index).live with
    | false => simp [AssemblerPool.bucketAt]
    | true => simp [AssemblerPool.bucketAt]

/-- A connection that has one of the two symbols of an object. -/
theorem receive_indexes_sound_opened :
    let env : ReceptionEnv :=
      { generation := 0, wasDelivered := false, rttsMs := [], nowMs := 1, allocates := true
        lossReleases := [], resumes := true, recovered := none, allocatesObject := true
        deliveryReleases := [] }
    let header : FecHeader :=
      { trackAlias := 8, isKeyframe := false, priority := 0, pathId := 0, groupId := 0
        objectId := 5, symbolIndex := 0, totalSymbols := 2, dataSymbols := 2, symbolSize := 1
        originalSize := 2 }
    let e := Machine.run step { limits := ⟨8, 1048576, by decide, by decide⟩ }
      [.connect 1000, .datagram 0 env { header := header, symbol := [7] }]
    ∃ receiver ∈ e.receivers, receiver.pool.findAssembler 8 0 5 = some 0 ∧
      receiver.pool.searchSlots 8 0 5 = some 0 ∧ receiver.pool.active.test 0 = true := by
  intro env header e
  refine ⟨_, List.mem_singleton_self _, ?_⟩
  obtain ⟨hfind, -, hactive, -⟩ := receive_indexes_sound ⟨8, 1048576, by decide, by decide⟩
    [.connect 1000, .datagram 0 env { header := header, symbol := [7] }]
    (List.mem_singleton_self _)
  refine ⟨by decide +kernel, (hfind 8 0 5).symm.trans (by decide +kernel),
    (hactive 0).trans (by decide +kernel)⟩

/-! ### Eviction -/

/-- A new object evicts a live one only from a full window, and then the one that is idle
for longest; a repeated symbol renews no object; and windows only widen. -/
theorem eviction_policy (limits : AssemblerLimits) (ops : List ReceptionOp)
    (hconn : (Machine.run step { limits := limits } ops).receivers[conn]? = some receiver)
    (env : ReceptionEnv) (datagram : Datagram) :
    let e := Machine.run step { limits := limits } ops
    let s := e.focus receiver
    let s' := s.receiveDatagram limits.maxAssemblers env datagram
    Reception.Receives env datagram s s' ∧
      (∀ index, (s.slot index).live = true → index < s.receiver.window.limit) ∧
      (∀ index, (s'.slot index).live = true → index < s'.receiver.window.limit) ∧
      ∀ more moved, follow more conn = some moved →
        ∃ later, (Machine.run step e more).receivers[moved]? = some later ∧
          receiver.window.limit ≤ later.window.limit := by
  intro e s s'
  have hsound : e.Sound := sound_run (sound_init limits) ops
  have hlimits : e.limits = limits := limits_run _ ops
  have hs : s.Sound limits := hlimits ▸ hsound.focus (List.mem_of_getElem? hconn)
  obtain ⟨hs', hreceives⟩ := Reception.receives_receiveDatagram hs env datagram
  exact ⟨hreceives, hs.inside, hs'.inside, fun more _ => window_run hsound hconn more⟩

/-- The first symbol on a new connection takes a slot of its window of eight. -/
theorem eviction_policy_first :
    let limits : AssemblerLimits := ⟨8, 1048576, by decide, by decide⟩
    let env : ReceptionEnv :=
      { generation := 0, wasDelivered := false, rttsMs := [], nowMs := 1, allocates := true
        lossReleases := [], resumes := true, recovered := none, allocatesObject := true
        deliveryReleases := [] }
    let header : FecHeader :=
      { trackAlias := 8, isKeyframe := false, priority := 0, pathId := 0, groupId := 0
        objectId := 5, symbolIndex := 0, totalSymbols := 2, dataSymbols := 2, symbolSize := 1
        originalSize := 2 }
    let e := Machine.run step { limits := limits } [.connect 1000]
    let s := e.focus { maxFecObjectSize := 1000 }
    Reception.Receives env { header := header, symbol := [7] } s
        (s.receiveDatagram 8 env { header := header, symbol := [7] }) ∧
      s.opensObject env { header := header, symbol := [7] } = true ∧
      (s.receiveDatagram 8 env { header := header, symbol := [7] }).receiver.window.limit = 8 := by
  intro limits env header e s
  have hpolicy := @eviction_policy 0 _ limits [.connect 1000] rfl env
    { header := header, symbol := [7] }
  exact ⟨hpolicy.1, by decide +kernel, by decide +kernel⟩

end ReceptionEndpoint

end Qlinq
