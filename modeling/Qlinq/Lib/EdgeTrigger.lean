import Mathlib.Data.List.Induction

/-! Reports of a level that are given once each time it rises. -/

inductive EdgeSignal where
  | lowered
  | reported
  | refused
  | steady
  deriving DecidableEq, Repr

namespace EdgeSignal

/-- What a look at the level comes to, when a report stands already or not and a new one would
be taken or not. -/
def look (standing level taken : Bool) : EdgeSignal :=
  if !level then
    lowered
  else if standing then
    steady
  else if taken then
    reported
  else
    refused

/-- Whether a report stands after a signal; a report is given where none stands, and none
where one does. -/
def next : Bool → EdgeSignal → Option Bool
  | _, lowered => some false
  | false, reported => some true
  | false, refused => some false
  | true, steady => some true
  | true, reported => none
  | true, refused => none
  | false, steady => none

/-- The signals take what stands before them to what stands after them. -/
def Runs (before : Bool) (signals : List EdgeSignal) (after : Bool) : Prop :=
  signals.foldlM next before = some after

variable {before standing after : Bool} {signal : EdgeSignal}
  {signals first between last : List EdgeSignal}

@[simp] theorem runs_nil : Runs before [] after ↔ before = after :=
  Option.some_inj

@[simp] theorem runs_cons :
    Runs before (signal :: signals) after ↔
      ∃ standing, next before signal = some standing ∧ Runs standing signals after :=
  Option.bind_eq_some_iff

theorem runs_append :
    Runs before (first ++ last) after ↔
      ∃ standing, Runs before first standing ∧ Runs standing last after := by
  rw [Runs, List.foldlM_append]
  exact Option.bind_eq_some_iff

theorem Runs.concat (hruns : Runs before signals standing)
    (hnext : next standing signal = some after) : Runs before (signals ++ [signal]) after :=
  runs_append.mpr ⟨standing, hruns, runs_cons.mpr ⟨after, hnext, runs_nil.mpr rfl⟩⟩

theorem Runs.lower (hruns : Runs before signals standing) :
    Runs before (signals ++ [lowered]) false :=
  hruns.concat rfl

theorem next_look (standing level taken : Bool) :
    next standing (look standing level taken) = some (level && (standing || taken)) := by
  cases standing <;> cases level <;> cases taken <;> rfl

theorem Runs.look (hruns : Runs before signals standing) (level taken : Bool) :
    Runs before (signals ++ [look standing level taken]) (level && (standing || taken)) :=
  hruns.concat (next_look standing level taken)

/-- Where no report stands, none does without a report. -/
theorem not_stands_of_not_reported (hnone : reported ∉ signals)
    (hruns : Runs false signals standing) : standing = false := by
  induction signals with
  | nil => exact (runs_nil.mp hruns).symm
  | cons signal rest ih =>
      rw [List.mem_cons, not_or] at hnone
      obtain ⟨held, hnext, hrest⟩ := runs_cons.mp hruns
      cases signal with
      | lowered => exact ih hnone.2 (Option.some.inj hnext ▸ hrest)
      | reported => exact absurd rfl hnone.1
      | refused => exact ih hnone.2 (Option.some.inj hnext ▸ hrest)
      | steady => cases hnext

/-- A report stands until the level is lowered, and no other is given. -/
theorem stands_of_not_lowered (hnone : lowered ∉ signals)
    (hruns : Runs true signals standing) :
    standing = true ∧ ∀ signal ∈ signals, signal = steady := by
  induction signals with
  | nil => exact ⟨(runs_nil.mp hruns).symm, by simp⟩
  | cons signal rest ih =>
      rw [List.mem_cons, not_or] at hnone
      obtain ⟨held, hnext, hrest⟩ := runs_cons.mp hruns
      cases signal with
      | lowered => exact absurd rfl hnone.1
      | reported => cases hnext
      | refused => cases hnext
      | steady =>
          obtain ⟨hstands, hall⟩ := ih hnone.2 (Option.some.inj hnext ▸ hrest)
          exact ⟨hstands, List.forall_mem_cons.mpr ⟨rfl, hall⟩⟩

/-- Between two reports the level was lowered. -/
theorem Runs.separated
    (hruns : Runs before (first ++ reported :: (between ++ reported :: last)) after) :
    lowered ∈ between := by
  obtain ⟨held, -, hrest⟩ := runs_append.mp hruns
  obtain ⟨given, hgiven, hrest⟩ := runs_cons.mp hrest
  obtain ⟨standing, hbetween, hrest⟩ := runs_append.mp hrest
  obtain ⟨_, hagain, _⟩ := runs_cons.mp hrest
  by_contra hnone
  cases held with
  | true => cases hgiven
  | false =>
      obtain rfl := Option.some.inj hgiven
      obtain rfl := (stands_of_not_lowered hnone hbetween).1
      cases hagain

/-- Once the level is lowered, it is not taken for reported before it is. -/
theorem Runs.owed (hruns : Runs before (first ++ lowered :: (between ++ steady :: last)) after) :
    reported ∈ between := by
  obtain ⟨held, -, hrest⟩ := runs_append.mp hruns
  obtain ⟨fallen, hfallen, hrest⟩ := runs_cons.mp hrest
  obtain ⟨standing, hbetween, hrest⟩ := runs_append.mp hrest
  obtain ⟨_, hsteady, _⟩ := runs_cons.mp hrest
  obtain rfl : false = fallen := by cases held <;> exact Option.some.inj hfallen
  by_contra hnone
  obtain rfl := not_stands_of_not_reported hnone hbetween
  cases hsteady

/-- A report that stands was given, and the level has not been lowered since. -/
theorem Runs.given (hruns : Runs false signals true) :
    ∃ first rest, signals = first ++ reported :: rest ∧ lowered ∉ rest := by
  induction signals using List.reverseRecOn with
  | nil => cases hruns
  | append_singleton signals signal ih =>
      obtain ⟨held, hheld, hlast⟩ := runs_append.mp hruns
      obtain ⟨standing, hnext, hend⟩ := runs_cons.mp hlast
      obtain rfl := runs_nil.mp hend
      cases signal with
      | lowered => cases held <;> cases hnext
      | reported => exact ⟨signals, [], rfl, by simp⟩
      | refused => cases held <;> cases hnext
      | steady =>
          cases held with
          | false => cases hnext
          | true =>
              obtain ⟨first, rest, rfl, hrest⟩ := ih hheld
              exact ⟨first, rest ++ [steady], by simp, by simp [hrest]⟩

end EdgeSignal
