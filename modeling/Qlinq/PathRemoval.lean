import Qlinq.Interfaces
import Qlinq.PathOpening

namespace Qlinq

open Compaction
open IfmonUpdate (interfaceRemoval)

/-! A removal message takes one slot out of every array at once. -/

/-- A live slot with what each connection keeps for it. -/
structure PathRow where
  slot : PathSlot
  records : List PathRecord
  deriving DecidableEq, Repr

namespace Paths

def row (t : Paths) (i : Nat) : PathRow where
  slot := t.slots i
  records := t.conns.map fun conn => conn.records i

def rows (t : Paths) : List PathRow := live t.numFds t.row

theorem map_slot_rows (t : Paths) : t.rows.map PathRow.slot = t.localSlots :=
  map_live _ _ _

theorem mem_localSlots {t : Paths} : slot ∈ t.localSlots ↔ ∃ i < t.numFds, t.slots i = slot :=
  mem_live

theorem bound_of_mem {t : Paths} (hslot : slot ∈ t.localSlots) : slot.localAddr.isSome := by
  obtain ⟨i, hi, rfl⟩ := mem_localSlots.mp hslot
  exact t.bound i hi

theorem slots_closeSlot {t : Paths} (hk : k < t.numFds - 1) :
    (t.closeSlot i).slots k = shiftDown i (t.numFds - 1) t.slots k :=
  Function.update_of_ne (by omega) ..

theorem row_closeSlot {t : Paths} (hk : k < t.numFds - 1) :
    (t.closeSlot i).row k = shiftDown i (t.numFds - 1) t.row k := by
  have hrecords : ∀ conn : PathConn,
      (removeConnectionPhysicalSlot t.numFds i conn).records k =
        shiftDown i (t.numFds - 1) conn.records k :=
    fun conn => Function.update_of_ne (by omega) ..
  have hmap : (t.closeSlot i).conns.map (fun conn => conn.records k) =
      t.conns.map fun conn => shiftDown i (t.numFds - 1) conn.records k := by
    simp only [closeSlot, List.map_map]
    exact List.map_congr_left fun conn _ => hrecords conn
  rw [row, slots_closeSlot hk, hmap, shiftDown_apply, shiftDown_apply]
  simp only [shiftDown_apply]
  split <;> rfl

theorem rows_closeSlot (t : Paths) (hi : i < t.numFds) :
    (t.closeSlot i).rows = t.rows.eraseIdx i := by
  calc (t.closeSlot i).rows
      = live (t.numFds - 1) (shiftDown i (t.numFds - 1) t.row) :=
        live_congr fun k hk => row_closeSlot hk
    _ = t.rows.eraseIdx i := live_shiftDown t.row hi

/-- The search and the shifting loops remove the first matching row, and leave
every other one whole and in place. -/
theorem rows_addressRemoved (t : Paths) (message : IfmonMessage) :
    (t.addressRemoved message).rows =
      t.rows.eraseP fun row => removalMatches message row.slot := by
  have hsearch : t.rows.findIdx? (fun row => removalMatches message row.slot) =
      t.localSlots.findIdx? (removalMatches message) := by
    rw [← map_slot_rows, List.findIdx?_map]
    rfl
  rw [addressRemoved, List.eraseP_eq_eraseIdx, hsearch]
  cases hfind : t.localSlots.findIdx? (removalMatches message) with
  | none => rfl
  | some i =>
      have hi : i < t.numFds := by
        simpa [localSlots] using (List.findIdx?_eq_some_iff_getElem.mp hfind).1
      exact rows_closeSlot t hi

theorem localSlots_addressRemoved (t : Paths) (message : IfmonMessage) :
    (t.addressRemoved message).localSlots = t.localSlots.eraseP (removalMatches message) := by
  rw [← map_slot_rows, ← map_slot_rows, rows_addressRemoved, List.eraseP_map]
  rfl

/-! An interface index was removed. -/

theorem removalMatches_interfaceRemoval (hbound : slot.localAddr.isSome) (k : UInt32) :
    removalMatches (interfaceRemoval k) slot = decide (slot.localIfindex = k) := by
  obtain ⟨addr, hlocal⟩ := Option.isSome_iff_exists.mp hbound
  simp [removalMatches, interfaceRemoval, hlocal, beq_eq_decide]

theorem rows_interfaceRemoval (t : Paths) (k : UInt32) :
    (t.addressRemoved (interfaceRemoval k)).rows =
      t.rows.eraseP fun row => row.slot.localIfindex = k := by
  rw [rows_addressRemoved]
  refine eraseP_congr fun row hrow => removalMatches_interfaceRemoval ?_ k
  exact bound_of_mem (map_slot_rows t ▸ List.mem_map_of_mem hrow)

/-- No bound slot is left on interface `k`, and the slots of the other
interfaces are bound as they were, with every record of theirs. -/
structure InterfaceRemoved (k : UInt32) (t t' : Paths) : Prop where
  gone : ∀ slot ∈ t'.localSlots, slot.localIfindex ≠ k
  kept : (t'.rows.filter fun row => row.slot.localIfindex ≠ k) =
    t.rows.filter fun row => row.slot.localIfindex ≠ k

/-- One message closes one slot, so it clears an interface that has at most
one. -/
theorem interface_removed_iff (t : Paths) (k : UInt32) (opened : Option Int) :
    InterfaceRemoved k t (t.onIfmonMessage (interfaceRemoval k) opened) ↔
      (t.localSlots.countP fun slot => slot.localIfindex = k) ≤ 1 := by
  have hrows : (t.onIfmonMessage (interfaceRemoval k) opened).rows =
      t.rows.eraseP fun row => row.slot.localIfindex = k := rows_interfaceRemoval t k
  generalize t.onIfmonMessage (interfaceRemoval k) opened = t' at hrows
  have hleft : (t'.localSlots.countP fun slot => slot.localIfindex = k) =
      (t.localSlots.countP fun slot => slot.localIfindex = k) - 1 := by
    rw [← map_slot_rows, ← map_slot_rows, hrows, List.countP_map, List.countP_map]
    exact countP_eraseP _ _
  have hgone : (∀ slot ∈ t'.localSlots, slot.localIfindex ≠ k) ↔
      (t'.localSlots.countP fun slot => slot.localIfindex = k) = 0 := by
    simp
  constructor
  · intro hremoved
    have := hgone.mp hremoved.gone
    omega
  · intro hone
    refine ⟨hgone.mpr (by omega), ?_⟩
    rw [hrows]
    exact filter_eraseP (fun row hrow => by simpa using hrow) _

/-! A server bound on `en0`, to which `en1` comes with an address of each
family and goes again. -/

def en0Server : PathConfig where
  bindAddrs := [.inet 0x0A000001 0]
  remoteAddrs := []
  port := 4433

def en0 : CreateEnv where
  socket := fun i => some (3 + i)
  interfaceOf := fun _ => some (1, [0x65, 0x6E, 0x30])
  connected := true

def en1Added (addr : SockAddr) : IfmonMessage where
  index := 2
  name := [0x65, 0x6E, 0x31]
  addr := some addr
  isAdded := true

def dualStack : Paths :=
  ((en0Server.bindPaths en0 (by decide)).onIfmonMessage
    (en1Added (.inet 0x0A000102 0)) (some 4)).onIfmonMessage
      (en1Added (.inet6 0xFD000000000000000000000000000002 0)) (some 5)

example : create en0Server en0 = some (en0Server.bindPaths en0 (by decide), []) := rfl

theorem dualStack_keeps_inet6 :
    ¬ InterfaceRemoved 2 dualStack (dualStack.onIfmonMessage (interfaceRemoval 2) none) := by
  intro hremoved
  exact absurd hremoved.gone (by decide +kernel)

end Paths

end Qlinq
