import Mathlib.Algebra.BigOperators.Group.Finset.Basic
import Mathlib.Algebra.Order.BigOperators.Group.Finset

/-! Exponential backoff: what a well-paced sequence of attempts looks like, and how much time it
takes. -/

structure Backoff where
  initial : Nat
  limit : Nat
  deriving DecidableEq, Repr

namespace Backoff

inductive Event where
  | scheduled (time : Int) (delay : Nat)
  | attempted (time : Int)
  | completed
  deriving DecidableEq, Repr

variable (b : Backoff)

/-- The delay behind `streak` delays without a success. -/
def delay (streak : Nat) : Nat := min (b.initial * 2 ^ streak) b.limit

/-- Each attempt waits for the delay scheduled before it, and each delay is the next of the
streak.  `due` is the time of the schedule that waits for its attempt. -/
def Paced : Nat → Option Int → List Event → Prop
  | _, _, [] => True
  | streak, due, .scheduled time delay :: rest =>
      due = none ∧ delay = b.delay streak ∧ Paced (streak + 1) (some (time + delay)) rest
  | streak, due, .attempted time :: rest =>
      (∃ start, due = some start ∧ start ≤ time) ∧ Paced streak none rest
  | _, due, .completed :: rest => Paced 0 due rest

/-- The events come in the order of their times, from `since` to `last`. -/
def Within (last : Int) : Int → List Event → Prop
  | since, [] => since ≤ last
  | since, .scheduled time _ :: rest => since ≤ time ∧ Within last time rest
  | since, .attempted time :: rest => since ≤ time ∧ Within last time rest
  | since, .completed :: rest => Within last since rest

def isAttempt : Event → Bool
  | .attempted _ => true
  | _ => false

variable {b}

theorem delay_succ (streak : Nat) : b.delay (streak + 1) = min (2 * b.delay streak) b.limit := by
  rw [delay, delay, Nat.pow_succ, ← Nat.mul_assoc]
  omega

/-- The delays of `count` attempts in a row. -/
def total (b : Backoff) (streak count : Nat) : Nat :=
  ∑ attempt ∈ Finset.range count, b.delay (streak + attempt)

theorem total_succ (streak count : Nat) :
    b.total streak (count + 1) = b.delay streak + b.total (streak + 1) count := by
  rw [total, Finset.sum_range_succ', Nat.add_comm, total]
  congr 1
  exact Finset.sum_congr rfl fun attempt _ => by
    rw [Nat.add_assoc, Nat.add_comm 1 attempt]

theorem since_le_last {events : List Event} (hwithin : Within last since events) :
    since ≤ last := by
  induction events generalizing since with
  | nil => exact hwithin
  | cons event rest ih =>
      cases event with
      | scheduled time delay => exact hwithin.1.trans (ih hwithin.2)
      | attempted time => exact hwithin.1.trans (ih hwithin.2)
      | completed => exact ih hwithin

/-- Attempts without a success between them take the delays of their streak. -/
theorem elapsed {events : List Event} {streak : Nat} {due : Option Int} {since last : Int}
    (hpaced : b.Paced streak due events) (hwithin : Within last since events)
    (hnone : Event.completed ∉ events) :
    (due = none → since + b.total streak (events.countP isAttempt) ≤ last) ∧
      ∀ start, due = some start → ∀ count, events.countP isAttempt = count + 1 →
        start + b.total streak count ≤ last := by
  induction events generalizing streak due since with
  | nil =>
      have hlast := since_le_last hwithin
      refine ⟨fun _ => ?_, by simp⟩
      simpa [total] using hlast
  | cons event rest ih =>
      have hrest : Event.completed ∉ rest := fun hmem => hnone (List.mem_cons_of_mem _ hmem)
      cases event with
      | scheduled time delay =>
          obtain ⟨rfl, rfl, hpaced⟩ := hpaced
          refine ⟨fun _ => ?_, by simp⟩
          have hlast := since_le_last hwithin.2
          have hafter := (ih hpaced hwithin.2 hrest).2 _ rfl
          rw [List.countP_cons_of_neg (by simp [isAttempt])]
          cases hcount : rest.countP isAttempt with
          | zero => simpa [total] using hwithin.1.trans hlast
          | succ count =>
              have hbound := hafter count hcount
              have hsince := hwithin.1
              rw [total_succ]
              omega
      | attempted time =>
          obtain ⟨⟨start, rfl, hstart⟩, hpaced⟩ := hpaced
          refine ⟨by simp, fun other hother count hcount => ?_⟩
          have hbound := (ih hpaced hwithin.2 hrest).1 rfl
          rw [List.countP_cons_of_pos rfl, Nat.add_right_cancel_iff] at hcount
          rw [hcount] at hbound
          rw [← Option.some.inj hother]
          omega
      | completed => exact absurd List.mem_cons_self hnone

end Backoff
