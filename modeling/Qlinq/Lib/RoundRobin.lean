import Mathlib.Data.List.Nodup

/-! Rounds over the places of a ring: a round visits each place once, from the cursor on, unless
a visit ends it, and leaves the cursor behind the last place that was served. -/

/-- How a visit went. -/
structure Turn where
  served : Bool
  cut : Bool
  deriving DecidableEq, Repr

namespace RoundRobin

def place (count start offset : Nat) : Nat := (start + offset) % count

/-- The places in the order of a round. -/
def order (count start : Nat) : List Nat := (List.range count).map (place count start)

/-- How far behind the cursor a place is. -/
def ahead (count cursor place : Nat) : Nat := (place + count - cursor % count) % count

variable {σ : Type} (visit : σ → Nat → σ × Turn)

def visits : List Nat → σ → σ × List (Nat × Turn)
  | [], s => (s, [])
  | place :: rest, s =>
      let (s, turn) := visit s place
      if turn.cut then
        (s, [(place, turn)])
      else
        let (s, log) := visits rest s
        (s, (place, turn) :: log)

def serves (log : List (Nat × Turn)) : Bool := log.any (·.2.served)

/-- The place was served, or its visit came to its own end. -/
def Reached (log : List (Nat × Turn)) (place : Nat) : Prop :=
  ∃ turn, (place, turn) ∈ log ∧ (turn.served = true ∨ turn.cut = false)

/-- A place that the round does not reach comes closer, when the round serves any. -/
def Advances (count before after : Nat) (log : List (Nat × Turn)) : Prop :=
  ∀ place < count, Reached log place ∨
    ahead count after place + (if serves log then 1 else 0) ≤ ahead count before place

/-! ### The ring -/

theorem place_lt (hcount : 0 < count) (start offset : Nat) : place count start offset < count :=
  Nat.mod_lt _ hcount

theorem place_succ (count start offset : Nat) :
    place count start (offset + 1) = (place count start offset + 1) % count := by
  rw [place, place, Nat.mod_add_mod, Nat.add_assoc]

theorem ahead_lt (hcount : 0 < count) (cursor place : Nat) : ahead count cursor place < count :=
  Nat.mod_lt _ hcount

@[simp] theorem ahead_mod (count cursor place : Nat) :
    ahead count (cursor % count) place = ahead count cursor place := by
  rw [ahead, ahead, Nat.mod_mod]

theorem place_ahead (hplace : p < count) (start : Nat) :
    place count start (ahead count start p) = p := by
  have hcount : 0 < count := Nat.zero_lt_of_lt hplace
  have hless := Nat.mod_lt start hcount
  rw [place, ahead, Nat.add_mod_mod, ← Nat.mod_add_mod]
  rw [show start % count + (p + count - start % count) = p + count by omega,
    Nat.add_mod_right, Nat.mod_eq_of_lt hplace]

theorem ahead_place (start : Nat) (hle : k ≤ d) (hd : d < count) :
    ahead count (place count start k) (place count start d) = d - k := by
  have hcount : 0 < count := Nat.zero_lt_of_lt hd
  have hplace : place count start d = (place count start k + (d - k)) % count := by
    rw [place, place, Nat.mod_add_mod, Nat.add_assoc, Nat.add_sub_cancel' hle]
  have hless := place_lt hcount start k
  rw [ahead, hplace, Nat.mod_eq_of_lt hless]
  generalize place count start k = from' at hless
  rcases Nat.lt_or_ge (from' + (d - k)) count with hbelow | habove
  · rw [Nat.mod_eq_of_lt hbelow,
      show from' + (d - k) + count - from' = d - k + count by omega, Nat.add_mod_right,
      Nat.mod_eq_of_lt (by omega)]
  · have hwrap : (from' + (d - k)) % count = from' + (d - k) - count := by
      rw [Nat.mod_eq_sub_mod habove]
      exact Nat.mod_eq_of_lt (by omega)
    rw [hwrap, show from' + (d - k) - count + count - from' = d - k by omega,
      Nat.mod_eq_of_lt (by omega)]

theorem mem_order (hplace : p < count) (start : Nat) : p ∈ order count start :=
  List.mem_map.mpr ⟨ahead count start p,
    List.mem_range.mpr (ahead_lt (Nat.zero_lt_of_lt hplace) start p), place_ahead hplace start⟩

theorem nodup_order (count start : Nat) : (order count start).Nodup := by
  refine List.Nodup.map_on (fun first hfirst second hsecond heq => ?_) List.nodup_range
  have hlast := congrArg (ahead count (place count start 0)) heq
  rwa [ahead_place start (Nat.zero_le _) (List.mem_range.mp hfirst),
    ahead_place start (Nat.zero_le _) (List.mem_range.mp hsecond)] at hlast

/-! ### One round -/

variable {visit}

/-- A visit leaves the cursor behind a place that it serves, and keeps `Inv`. -/
def Follows (visit : σ → Nat → σ × Turn) (cursor : σ → Nat) (count : Nat) (Inv : σ → Prop) :
    Prop :=
  ∀ s place, Inv s → Inv (visit s place).1 ∧
    cursor (visit s place).1 =
      if (visit s place).2.served then (place + 1) % count else cursor s

theorem serves_cons (p : Nat) (turn : Turn) (log : List (Nat × Turn)) :
    serves ((p, turn) :: log) = (turn.served || serves log) :=
  rfl

/-- The visits behind the first `offset`, of which the last that served left the cursor `k`
places behind the start. -/
theorem visits_advance {cursor : σ → Nat} {Inv : σ → Prop}
    (hfollows : Follows visit cursor count Inv) (left : Nat) {s : σ} (hinv : Inv s)
    {offset k start d : Nat} (htotal : offset + left = count) (hk : k ≤ offset)
    (hcursor : cursor s % count = place count start k) (hd : offset ≤ d) (hless : d < count) :
    let result := visits visit ((List.range' offset left).map (place count start)) s
    Reached result.2 (place count start d) ∨
      ahead count (cursor result.1) (place count start d) +
        (if serves result.2 then 1 else 0) ≤ d - k := by
  induction left generalizing s offset k with
  | zero => omega
  | succ left ih =>
      obtain ⟨hkept, hstep⟩ := hfollows s (place count start offset) hinv
      rw [List.range'_succ, List.map_cons]
      simp only [visits]
      rcases hvisit : visit s (place count start offset) with ⟨after, turn⟩
      rw [hvisit] at hkept hstep
      dsimp only at hkept hstep
      have hcursor' : cursor after % count =
          place count start (if turn.served then offset + 1 else k) := by
        rw [hstep]
        split
        · rw [Nat.mod_mod, place_succ]
        · exact hcursor
      have hk' : (if turn.served then offset + 1 else k) ≤ offset + 1 := by
        split <;> omega
      by_cases hcut : turn.cut = true
      · simp only [hcut, if_true]
        by_cases hhere : turn.served = true ∧ d = offset
        · obtain ⟨hserved, rfl⟩ := hhere
          exact .inl ⟨turn, List.mem_singleton.mpr rfl, .inl hserved⟩
        · right
          rw [serves_cons, ← ahead_mod, hcursor']
          cases hserved : turn.served with
          | false =>
              rw [if_neg Bool.false_ne_true, ahead_place start (Nat.le_trans hk hd) hless]
              exact Nat.le_refl _
          | true =>
              have hbehind : offset + 1 ≤ d := by
                have hother : d ≠ offset := fun heq => hhere ⟨hserved, heq⟩
                omega
              rw [if_pos rfl, ahead_place start hbehind hless, Bool.true_or, if_pos rfl]
              omega
      · rw [if_neg hcut]
        dsimp only
        by_cases hhere : d = offset
        · subst hhere
          exact .inl ⟨turn, List.mem_cons_self, .inr (by simpa using hcut)⟩
        · have hrest := ih hkept (by omega) hk' hcursor' (by omega)
          rcases hrest with ⟨turn', hmem, hreached⟩ | hcloser
          · exact .inl ⟨turn', List.mem_cons_of_mem _ hmem, hreached⟩
          · right
            rw [serves_cons]
            cases hserved : turn.served with
            | false => simpa [hserved] using hcloser
            | true =>
                rw [hserved, if_pos rfl] at hcloser
                simp only [Bool.true_or, if_true]
                omega

def round (visit : σ → Nat → σ × Turn) (cursor : σ → Nat) (count : Nat) (s : σ) :
    σ × List (Nat × Turn) :=
  visits visit (order count (cursor s % count)) s

theorem inv_visits {cursor : σ → Nat} {Inv : σ → Prop} (hfollows : Follows visit cursor count Inv)
    (places : List Nat) {s : σ} (hinv : Inv s) : Inv (visits visit places s).1 := by
  induction places generalizing s with
  | nil => exact hinv
  | cons place rest ih =>
      have hkept := (hfollows s place hinv).1
      simp only [visits]
      split
      · exact hkept
      · exact ih hkept

theorem round_advances {cursor : σ → Nat} {Inv : σ → Prop}
    (hfollows : Follows visit cursor count Inv) {s : σ} (hinv : Inv s) :
    Advances count (cursor s) (cursor (round visit cursor count s).1)
      (round visit cursor count s).2 := by
  intro p hp
  have hcount : 0 < count := Nat.zero_lt_of_lt hp
  have hstart : cursor s % count = place count (cursor s % count) 0 := by
    rw [place, Nat.add_zero, Nat.mod_mod]
  have hall := visits_advance hfollows count hinv (Nat.zero_add count) (Nat.le_refl 0) hstart
    (Nat.zero_le (ahead count (cursor s) p)) (ahead_lt hcount _ _)
  rw [← ahead_mod, place_ahead hp, ahead_mod, Nat.sub_zero, ← List.range_eq_range'] at hall
  exact hall

/-! ### Many rounds -/

variable {ι : Type} (step : σ → ι → σ) (log : σ → ι → List (Nat × Turn))

/-- The logs of a run of rounds. -/
def logs : σ → List ι → List (List (Nat × Turn))
  | _, [] => []
  | s, input :: rest => log s input :: logs (step s input) rest

variable {step log}

/-- As many rounds that serve as there are places reach every place. -/
theorem reached_within {cursor : σ → Nat} {Inv : σ → Prop} {inputs : List ι}
    (hadvances : ∀ s, ∀ input ∈ inputs, Inv s → Inv (step s input) ∧
      Advances count (cursor s) (cursor (step s input)) (log s input))
    {p : Nat} (hp : p < count) {s : σ} (hinv : Inv s)
    (hserves : ahead count (cursor s) p < (logs step log s inputs).countP serves) :
    ∃ round ∈ logs step log s inputs, Reached round p := by
  induction inputs generalizing s with
  | nil => simp [logs] at hserves
  | cons input rest ih =>
      rw [logs, List.countP_cons] at hserves
      obtain ⟨hkept, hmoved⟩ := hadvances s input List.mem_cons_self hinv
      rcases hmoved p hp with hreached | hcloser
      · exact ⟨_, List.mem_cons_self, hreached⟩
      · obtain ⟨round, hmem, hreached⟩ :=
          ih (fun s input hmem => hadvances s input (List.mem_cons_of_mem _ hmem)) hkept (by omega)
        exact ⟨round, List.mem_cons_of_mem _ hmem, hreached⟩

end RoundRobin
