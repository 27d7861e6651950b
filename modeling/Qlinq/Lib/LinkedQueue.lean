import Mathlib.Data.List.Basic
import Mathlib.Logic.Function.Basic

/-! A queue of linked cells: a reference to the first cell, one to the last, and in each cell
one to the cell behind it. -/

structure LinkedCell (α : Type) where
  next : Option Nat
  item : α

structure LinkedQueue (α : Type) where
  heap : Nat → Option (LinkedCell α) := fun _ => none
  head : Option Nat := none
  tail : Option Nat := none

namespace LinkedQueue

variable {α : Type}

/-- Let the cell refer to another one. -/
def relink (heap : Nat → Option (LinkedCell α)) (address : Nat) (next : Option Nat) :
    Nat → Option (LinkedCell α) :=
  Function.update heap address ((heap address).map fun cell => { cell with next := next })

/-- Link a new cell behind the last one. -/
def push (queue : LinkedQueue α) (address : Nat) (item : α) : LinkedQueue α :=
  let heap := Function.update queue.heap address (some { next := none, item := item })
  match queue.tail with
  | some last => { queue with heap := relink heap last (some address), tail := some address }
  | none => { heap := heap, head := some address, tail := some address }

/-- Unlink the first cell, which stays allocated. -/
def pop (queue : LinkedQueue α) : Option (Nat × α × LinkedQueue α) :=
  match queue.head with
  | none => none
  | some first =>
      match queue.heap first with
      | none => none
      | some cell =>
          some (first, cell.item,
            { heap := relink queue.heap first none
              head := cell.next
              tail := if cell.next = none then none else queue.tail })

def free (queue : LinkedQueue α) (address : Nat) : LinkedQueue α :=
  { queue with heap := Function.update queue.heap address none }

/-- The cells from a reference on, and then the end. -/
def Chain (heap : Nat → Option (LinkedCell α)) : Option Nat → List (Nat × α) → Prop
  | start, [] => start = none
  | start, (address, item) :: rest =>
      start = some address ∧
        ∃ next, heap address = some { next := next, item := item } ∧ Chain heap next rest

/-- The queue is made of these cells; the last one is the one it refers to as such. -/
structure Holds (queue : LinkedQueue α) (cells : List (Nat × α)) : Prop where
  chain : Chain queue.heap queue.head cells
  tail_eq : queue.tail = cells.getLast?.map Prod.fst
  nodup : (cells.map Prod.fst).Nodup

variable {heap heap' : Nat → Option (LinkedCell α)} {queue : LinkedQueue α}
  {cells rest : List (Nat × α)} {address : Nat} {item : α}

theorem holds_empty : Holds ({} : LinkedQueue α) [] where
  chain := rfl
  tail_eq := rfl
  nodup := List.nodup_nil

theorem Chain.congr (hchain : Chain heap start cells)
    (hsame : ∀ cell ∈ cells, heap' cell.1 = heap cell.1) : Chain heap' start cells := by
  induction cells generalizing start with
  | nil => exact hchain
  | cons cell rest ih =>
      obtain ⟨hcell, hrest⟩ := List.forall_mem_cons.mp hsame
      obtain ⟨hstart, next, hheap, hchain⟩ := hchain
      exact ⟨hstart, next, hcell.trans hheap, ih hchain hrest⟩

theorem Chain.allocated (hchain : Chain heap start cells) (hcell : cell ∈ cells) :
    (heap cell.1).isSome := by
  induction cells generalizing start with
  | nil => cases hcell
  | cons first rest ih =>
      obtain ⟨-, next, hheap, hchain⟩ := hchain
      cases hcell with
      | head => rw [hheap]; rfl
      | tail _ hrest => exact ih hchain hrest

/-- An unused cell is none of the queue's. -/
theorem Holds.fresh (hholds : queue.Holds cells) (hfresh : queue.heap address = none) :
    address ∉ cells.map Prod.fst := by
  intro hmem
  obtain ⟨cell, hcell, rfl⟩ := List.mem_map.mp hmem
  have hallocated := hholds.chain.allocated hcell
  rw [hfresh] at hallocated
  cases hallocated

/-- A new cell behind the last one. -/
theorem Chain.push (hchain : Chain heap start cells) (hlast : cells.getLast? = some last)
    (hnodup : (cells.map Prod.fst).Nodup) (hfresh : address ∉ cells.map Prod.fst) (item : α) :
    Chain (relink (Function.update heap address (some { next := none, item := item })) last.1
      (some address)) start (cells ++ [(address, item)]) := by
  induction cells generalizing start with
  | nil => cases hlast
  | cons cell rest ih =>
      obtain ⟨here, held⟩ := cell
      obtain ⟨hstart, next, hheap, hchain⟩ := hchain
      obtain ⟨hnew, hnodup⟩ := List.nodup_cons.mp hnodup
      obtain ⟨hother, hfresh⟩ := List.ne_and_not_mem_of_not_mem_cons hfresh
      cases rest with
      | nil =>
          obtain rfl : (here, held) = last := Option.some.inj hlast
          obtain rfl : next = none := hchain
          refine ⟨hstart, some address, ?_, rfl, none, ?_, rfl⟩
          · simp [relink, Function.update_of_ne (Ne.symm hother), hheap]
          · simp [relink, Function.update_of_ne hother]
      | cons second rest =>
          have hlast : (second :: rest).getLast? = some last := by
            rwa [List.getLast?_cons_cons] at hlast
          have hbehind : last.1 ∈ (second :: rest).map Prod.fst :=
            List.mem_map_of_mem (List.mem_of_getLast? hlast)
          have hne : here ≠ last.1 := fun heq => hnew (heq ▸ hbehind)
          refine ⟨hstart, next, ?_, ih hchain hlast hnodup hfresh⟩
          rw [relink, Function.update_of_ne hne, Function.update_of_ne (Ne.symm hother), hheap]

theorem holds_push (hholds : queue.Holds cells) (hfresh : queue.heap address = none)
    (item : α) : (queue.push address item).Holds (cells ++ [(address, item)]) := by
  have hnew := hholds.fresh hfresh
  have hnodup : ((cells ++ [(address, item)]).map Prod.fst).Nodup := by
    rw [List.map_append, List.map_singleton]
    exact List.nodup_append.mpr ⟨hholds.nodup, by simp, fun a ha b hb heq => by
      obtain rfl := List.mem_singleton.mp hb
      exact hnew (heq ▸ ha)⟩
  cases hlast : cells.getLast? with
  | none =>
      obtain rfl := List.getLast?_eq_none_iff.mp hlast
      have htail : queue.tail = none := hholds.tail_eq
      simp only [LinkedQueue.push, htail]
      exact
        { chain := ⟨rfl, none, Function.update_self .., rfl⟩
          tail_eq := rfl
          nodup := hnodup }
  | some last =>
      have htail : queue.tail = some last.1 := by
        rw [hholds.tail_eq, hlast]
        rfl
      simp only [LinkedQueue.push, htail]
      exact
        { chain := hholds.chain.push hlast hholds.nodup hnew item
          tail_eq := by
            rw [List.getLast?_concat]
            rfl
          nodup := hnodup }

/-- Cells stay allocated. -/
theorem isSome_push (queue : LinkedQueue α) (hunused : queue.heap address = none)
    (other : Nat) (hallocated : (queue.heap other).isSome) :
    ((queue.push address item).heap other).isSome := by
  have hne : other ≠ address := by
    rintro rfl
    rw [hunused] at hallocated
    cases hallocated
  simp only [push]
  split
  · simp only [relink]
    rename_i last _
    cases decEq other last with
    | isTrue heq =>
        subst heq
        rwa [Function.update_self, Option.isSome_map, Function.update_of_ne hne]
    | isFalse hother => rwa [Function.update_of_ne hother, Function.update_of_ne hne]
  · simp only
    rwa [Function.update_of_ne hne]

theorem pop_eq_none (hholds : queue.Holds []) : queue.pop = none := by
  have hhead : queue.head = none := hholds.chain
  simp only [pop, hhead]

/-- The first item comes out, and the rest is left. -/
theorem pop_eq_some (hholds : queue.Holds ((address, item) :: rest)) :
    ∃ popped, queue.pop = some (address, item, popped) ∧ popped.Holds rest ∧
      ∀ other, (popped.heap other).isSome = (queue.heap other).isSome := by
  obtain ⟨hhead, next, hheap, hchain⟩ := hholds.chain
  obtain ⟨hfirst, hnodup⟩ := List.nodup_cons.mp hholds.nodup
  have hpop : queue.pop = some (address, item,
      { heap := relink queue.heap address none
        head := next
        tail := if next = none then none else queue.tail }) := by
    simp only [pop, hhead, hheap]
  refine ⟨_, hpop, ?_, ?_⟩
  · exact
      { chain := hchain.congr fun cell hcell => by
          refine Function.update_of_ne ?_ _ _
          intro heq
          have hcell : cell.1 ∈ rest.map Prod.fst := List.mem_map_of_mem hcell
          exact hfirst (heq ▸ hcell)
        tail_eq := by
          cases rest with
          | nil =>
              obtain rfl : next = none := hchain
              rfl
          | cons second rest =>
              obtain ⟨rfl, -⟩ := hchain
              simp only [reduceCtorEq, if_false]
              rw [hholds.tail_eq, List.getLast?_cons_cons]
        nodup := hnodup }
  · intro other
    simp only [relink]
    cases decEq other address with
    | isTrue heq =>
        subst heq
        rw [Function.update_self, Option.isSome_map]
    | isFalse hne => rw [Function.update_of_ne hne]

theorem holds_free (hholds : queue.Holds cells) (hother : address ∉ cells.map Prod.fst) :
    (queue.free address).Holds cells where
  chain := hholds.chain.congr fun cell hcell => by
    refine Function.update_of_ne ?_ _ _
    intro heq
    exact hother (heq ▸ List.mem_map_of_mem hcell)
  tail_eq := hholds.tail_eq
  nodup := hholds.nodup

end LinkedQueue
