import Mathlib.Algebra.Order.Floor.Div
import Mathlib.Data.List.Pairwise

/-! A token bucket that refills only when it is looked at. -/

structure TokenBucket where
  capacity : Nat
  rate : Nat
  cost : Nat

namespace TokenBucket

/-- The tokens there were at the last refill. -/
structure State where
  tokens : Nat
  last : Nat

inductive Call where
  | look
  | take
  deriving DecidableEq, Repr

variable (bucket : TokenBucket)

def refill (s : State) (now : Nat) : State where
  tokens := min bucket.capacity (s.tokens + bucket.rate * (now - s.last))
  last := now

/-- The state behind a call, and whether it took tokens. -/
def step (s : State) : Call × Nat → State × Bool
  | (.look, now) => (bucket.refill s now, false)
  | (.take, now) =>
      let refilled := bucket.refill s now
      if bucket.cost ≤ refilled.tokens then
        ({ refilled with tokens := refilled.tokens - bucket.cost }, true)
      else
        (refilled, false)

/-- The times at which tokens were taken. -/
def takeTimes (s : State) : List (Call × Nat) → List Nat
  | [] => []
  | call :: rest =>
      let (s, taken) := bucket.step s call
      if taken then call.2 :: takeTimes s rest else takeTimes s rest

variable {bucket}

theorem refill_tokens_le (bucket : TokenBucket) (s : State) (now : Nat) :
    (bucket.refill s now).tokens ≤ bucket.capacity :=
  Nat.min_le_left _ _

/-- A refill on the way changes nothing. -/
theorem refill_refill {s : State} (hfirst : s.last ≤ first) (hsecond : first ≤ second) :
    bucket.refill (bucket.refill s first) second = bucket.refill s second := by
  have hadded : bucket.rate * (first - s.last) + bucket.rate * (second - first) =
      bucket.rate * (second - s.last) := by
    rw [← Nat.mul_add]
    congr 1
    omega
  simp only [refill, State.mk.injEq, and_true]
  omega

/-- A call spends what it takes from the refilled bucket. -/
theorem step_spends (bucket : TokenBucket) (s : State) (call : Call × Nat) :
    (bucket.step s call).1.last = call.2 ∧
      (bucket.step s call).1.tokens + (if (bucket.step s call).2 then bucket.cost else 0) =
        (bucket.refill s call.2).tokens := by
  obtain ⟨kind, now⟩ := call
  cases kind with
  | look => exact ⟨rfl, rfl⟩
  | take =>
      simp only [step]
      split
      · next henough => exact ⟨rfl, Nat.sub_add_cancel henough⟩
      · exact ⟨rfl, rfl⟩

theorem step_refill {s : State} {call : Call × Nat} (hfirst : s.last ≤ first)
    (hcall : first ≤ call.2) : bucket.step (bucket.refill s first) call = bucket.step s call := by
  obtain ⟨kind, now⟩ := call
  cases kind with
  | look => exact congrArg (·, false) (refill_refill hfirst hcall)
  | take => simp only [step, refill_refill hfirst hcall]

theorem takeTimes_refill {s : State} {calls : List (Call × Nat)} (hfirst : s.last ≤ first)
    (hcalls : ∀ call ∈ calls, first ≤ call.2) :
    bucket.takeTimes (bucket.refill s first) calls = bucket.takeTimes s calls := by
  cases calls with
  | nil => rfl
  | cons call rest =>
      simp only [takeTimes]
      rw [step_refill hfirst (hcalls call List.mem_cons_self)]

theorem mem_takeTimes {s : State} {calls : List (Call × Nat)}
    (htime : time ∈ bucket.takeTimes s calls) : ∃ call ∈ calls, call.2 = time := by
  induction calls generalizing s with
  | nil => cases htime
  | cons call rest ih =>
      simp only [takeTimes] at htime
      split at htime
      · cases htime with
        | head => exact ⟨call, List.mem_cons_self, rfl⟩
        | tail _ hrest =>
            obtain ⟨other, hother, heq⟩ := ih hrest
            exact ⟨other, List.mem_cons_of_mem _ hother, heq⟩
      · obtain ⟨other, hother, heq⟩ := ih htime
        exact ⟨other, List.mem_cons_of_mem _ hother, heq⟩

/-- What is taken until `last` was there at the start or was added since. -/
theorem cost_mul_countP_le (bucket : TokenBucket) {s : State} {calls : List (Call × Nat)}
    (hstart : ∀ call ∈ calls, s.last ≤ call.2) (hsorted : calls.Pairwise (·.2 ≤ ·.2))
    (last : Nat) :
    bucket.cost * (bucket.takeTimes s calls).countP (· ≤ last) ≤
      s.tokens + bucket.rate * (last - s.last) := by
  induction calls generalizing s with
  | nil => exact Nat.zero_le _
  | cons call rest ih =>
      obtain ⟨hfirst, hrest⟩ := List.pairwise_cons.mp hsorted
      by_cases hlate : last < call.2
      · have hnone : (bucket.takeTimes s (call :: rest)).countP (· ≤ last) = 0 := by
          refine List.countP_eq_zero.mpr fun time htime => ?_
          obtain ⟨other, hother, rfl⟩ := mem_takeTimes htime
          have hle : call.2 ≤ other.2 := by
            cases hother with
            | head => exact Nat.le_refl _
            | tail _ hmem => exact hfirst other hmem
          simp only [decide_eq_true_eq]
          omega
        rw [hnone, Nat.mul_zero]
        exact Nat.zero_le _
      · obtain ⟨hlast, hspends⟩ := step_spends bucket s call
        have hrun := ih (s := (bucket.step s call).1)
          (fun other hother => hlast ▸ hfirst other hother) hrest
        have hrefill : (bucket.refill s call.2).tokens ≤
            s.tokens + bucket.rate * (call.2 - s.last) := Nat.min_le_right _ _
        have hadded : bucket.rate * (call.2 - s.last) + bucket.rate * (last - call.2) =
            bucket.rate * (last - s.last) := by
          rw [← Nat.mul_add]
          have hhere := hstart call List.mem_cons_self
          congr 1
          omega
        rw [hlast] at hrun
        simp only [takeTimes]
        split
        · next htaken =>
            have hcounts : call.2 ≤ last := by omega
            rw [if_pos htaken] at hspends
            rw [List.countP_cons_of_pos (by simpa using hcounts), Nat.mul_succ]
            omega
        · next htaken =>
            rw [if_neg htaken] at hspends
            omega

/-- What is taken in a window of time is at most a full bucket and what the window adds. -/
theorem cost_mul_window_le (bucket : TokenBucket) {s : State} {calls : List (Call × Nat)}
    (hstart : ∀ call ∈ calls, s.last ≤ call.2) (hsorted : calls.Pairwise (·.2 ≤ ·.2))
    (first last : Nat) :
    bucket.cost * (bucket.takeTimes s calls).countP (fun time => first ≤ time ∧ time ≤ last) ≤
      bucket.capacity + bucket.rate * (last - first) := by
  induction calls generalizing s with
  | nil => exact Nat.zero_le _
  | cons call rest ih =>
      obtain ⟨hfirst, hrest⟩ := List.pairwise_cons.mp hsorted
      by_cases hearly : call.2 < first
      · have hrun := ih (s := (bucket.step s call).1)
          (fun other hother => (step_spends bucket s call).1 ▸ hfirst other hother) hrest
        simp only [takeTimes]
        split
        · rwa [List.countP_cons_of_neg]
          simp only [decide_eq_true_eq]
          omega
        · exact hrun
      · -- from here on every call lies behind `first`: refill there
        have hlater : ∀ other ∈ call :: rest, max first s.last ≤ other.2 := by
          intro other hother
          have hstarted := hstart other hother
          cases hother with
          | head => omega
          | tail _ hmem =>
              have := hfirst other hmem
              omega
        have hrefilled := cost_mul_countP_le bucket
          (s := bucket.refill s (max first s.last)) hlater hsorted last
        rw [takeTimes_refill (Nat.le_max_right _ _) hlater] at hrefilled
        have hcount : (bucket.takeTimes s (call :: rest)).countP
              (fun time => first ≤ time ∧ time ≤ last) ≤
            (bucket.takeTimes s (call :: rest)).countP (· ≤ last) :=
          List.countP_mono_left fun time _ hin => by
            simp only [decide_eq_true_eq] at hin ⊢
            exact hin.2
        have hfull := refill_tokens_le bucket s (max first s.last)
        have hadded : bucket.rate * (last - max first s.last) ≤ bucket.rate * (last - first) :=
          Nat.mul_le_mul_left _ (by omega)
        have hcost := Nat.mul_le_mul_left bucket.cost hcount
        simp only [refill] at hrefilled hfull
        omega

/-- The bucket holds the cost as soon as the missing tokens, rounded up, were added. -/
theorem cost_le_refill_iff (bucket : TokenBucket) {s : State} (hrate : 0 < bucket.rate)
    (hcost : bucket.cost ≤ bucket.capacity) (now : Nat) :
    bucket.cost ≤ (bucket.refill s now).tokens ↔
      (bucket.cost - s.tokens) ⌈/⌉ bucket.rate ≤ now - s.last := by
  rw [ceilDiv_le_iff_le_mul hrate]
  simp only [refill, Nat.le_min]
  omega

end TokenBucket
