import Mathlib.Data.List.Basic

/-! A queue of items in one stretch of a flat memory: they are written behind its end, read
from its front and moved down to make room. -/

structure FlatQueue (α : Type) where
  cells : List α
  first : Nat
  last : Nat

namespace FlatQueue

variable {α : Type} {cells : List α} {queue : FlatQueue α}

def content (queue : FlatQueue α) : List α := (queue.cells.take queue.last).drop queue.first

/-- The stretch lies within the memory. -/
structure Inside (queue : FlatQueue α) : Prop where
  first_le : queue.first ≤ queue.last
  last_le : queue.last ≤ queue.cells.length

/-- Overwrite the cells from `start` on. -/
def writeAt (cells : List α) (start : Nat) (items : List α) : List α :=
  cells.take start ++ items ++ cells.drop (start + items.length)

theorem length_writeAt (hroom : start + items.length ≤ cells.length) :
    (writeAt cells start items).length = cells.length := by
  simp only [writeAt, List.length_append, List.length_take, List.length_drop]
  omega

theorem take_writeAt (hstart : start ≤ cells.length) (items : List α) :
    (writeAt cells start items).take (start + items.length) = cells.take start ++ items := by
  apply List.take_left'
  rw [List.length_append, List.length_take, Nat.min_eq_left hstart]

theorem drop_writeAt (hstart : start ≤ cells.length) (items : List α) :
    (writeAt cells start items).drop (start + items.length) =
      cells.drop (start + items.length) := by
  apply List.drop_left'
  rw [List.length_append, List.length_take, Nat.min_eq_left hstart]

/-- Two writes, one behind the other, are one. -/
theorem writeAt_writeAt (hstart : start ≤ cells.length) (items more : List α) :
    writeAt (writeAt cells start items) (start + items.length) more =
      writeAt cells start (items ++ more) := by
  have hbehind : (writeAt cells start items).drop (start + items.length + more.length) =
      cells.drop (start + (items ++ more).length) := by
    rw [← List.drop_drop, drop_writeAt hstart, List.drop_drop, List.length_append, Nat.add_assoc]
  conv_lhs => rw [writeAt, take_writeAt hstart, hbehind]
  simp only [writeAt, List.append_assoc]

theorem length_content (hinside : queue.Inside) :
    queue.content.length = queue.last - queue.first := by
  simp only [content, List.length_drop, List.length_take, Nat.min_eq_left hinside.last_le]

theorem content_of_empty (hempty : queue.last ≤ queue.first) : queue.content = [] := by
  apply List.drop_eq_nil_of_le
  rw [List.length_take]
  omega

/-! ### Writing behind the end -/

def put (queue : FlatQueue α) (items : List α) : FlatQueue α where
  cells := writeAt queue.cells queue.last items
  first := queue.first
  last := queue.last + items.length

theorem content_put (hinside : queue.Inside) (items : List α) :
    (queue.put items).content = queue.content ++ items := by
  have hfirst : queue.first ≤ (queue.cells.take queue.last).length := by
    rw [List.length_take, Nat.min_eq_left hinside.last_le]
    exact hinside.first_le
  simp only [content, put]
  rw [take_writeAt hinside.last_le, List.drop_append_of_le_length hfirst]

theorem inside_put (hinside : queue.Inside)
    (hroom : queue.last + items.length ≤ queue.cells.length) : (queue.put items).Inside where
  first_le := Nat.le_trans hinside.first_le (Nat.le_add_right _ _)
  last_le := by
    simp only [put, length_writeAt hroom]
    exact hroom

/-! ### Reading from the front -/

def advance (queue : FlatQueue α) (count : Nat) : FlatQueue α :=
  { queue with first := queue.first + count }

theorem content_advance (queue : FlatQueue α) (count : Nat) :
    (queue.advance count).content = queue.content.drop count := by
  simp only [content, advance, List.drop_drop]

theorem inside_advance (hinside : queue.Inside) (hcount : count ≤ queue.last - queue.first) :
    (queue.advance count).Inside where
  first_le := by
    have := hinside.first_le
    simp only [advance]
    omega
  last_le := hinside.last_le

/-! ### Making room -/

/-- Move the content down to the first cell. -/
def compact (queue : FlatQueue α) : FlatQueue α where
  cells := writeAt queue.cells 0 queue.content
  first := 0
  last := queue.content.length

theorem content_compact (queue : FlatQueue α) : queue.compact.content = queue.content := by
  have htake := take_writeAt (Nat.zero_le queue.cells.length) queue.content
  rw [Nat.zero_add, List.take_zero, List.nil_append] at htake
  exact htake

theorem length_content_le (queue : FlatQueue α) : queue.content.length ≤ queue.cells.length := by
  simp only [content, List.length_drop, List.length_take]
  omega

theorem length_compact (queue : FlatQueue α) :
    queue.compact.cells.length = queue.cells.length :=
  length_writeAt (by rw [Nat.zero_add]; exact length_content_le queue)

theorem inside_compact (queue : FlatQueue α) : queue.compact.Inside where
  first_le := Nat.zero_le _
  last_le := by
    rw [length_compact]
    exact length_content_le queue

/-- Content that starts at the first cell, or none, is where it belongs. -/
theorem compact_of_settled (hinside : queue.Inside)
    (hsettled : queue.first = 0 ∨ queue.last ≤ queue.first) :
    queue.compact.cells = queue.cells := by
  rcases hsettled with hfront | hempty
  · have hcontent : queue.content = queue.cells.take queue.last := by
      simp only [content, hfront, List.drop_zero]
    have hlength : queue.content.length = queue.last := by
      rw [length_content hinside, hfront, Nat.sub_zero]
    simp only [compact, writeAt, List.take_zero, List.nil_append, Nat.zero_add, hlength]
    rw [hcontent, List.take_append_drop]
  · simp only [compact, writeAt, content_of_empty hempty, List.take_zero, List.nil_append,
      List.length_nil, Nat.add_zero, List.drop_zero]

/-- More memory behind the stretch. -/
def enlarge (queue : FlatQueue α) (more : List α) : FlatQueue α :=
  { queue with cells := queue.cells ++ more }

theorem content_enlarge (hinside : queue.Inside) (more : List α) :
    (queue.enlarge more).content = queue.content := by
  simp only [content, enlarge]
  rw [List.take_append_of_le_length hinside.last_le]

theorem inside_enlarge (hinside : queue.Inside) (more : List α) :
    (queue.enlarge more).Inside where
  first_le := hinside.first_le
  last_le := by
    simp only [enlarge, List.length_append]
    exact Nat.le_trans hinside.last_le (Nat.le_add_right _ _)

end FlatQueue
