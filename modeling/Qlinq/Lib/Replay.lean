import Mathlib.Data.List.Basic

/-! A log of commands that a replica replays behind its writer. -/

namespace Replay

variable {σ ι : Type} {step : σ → ι → Option σ}

/-- The state behind the commands of a log; `none` when one is refused. -/
def replay (step : σ → ι → Option σ) (s : σ) (log : List ι) : Option σ :=
  log.foldlM step s

@[simp] theorem replay_nil (s : σ) : replay step s [] = some s :=
  rfl

theorem replay_append (s : σ) (first second : List ι) :
    replay step s (first ++ second) =
      (replay step s first).bind fun s => replay step s second :=
  List.foldlM_append

theorem replay_snoc (s : σ) (log : List ι) (command : ι) :
    replay step s (log ++ [command]) = (replay step s log).bind (step · command) := by
  rw [replay_append]
  congr 1
  funext s
  simp [replay]

/-- Commands that leave every state alone. -/
theorem replay_idle {log idle : List ι} (hlog : replay step s log = some s')
    (hidle : ∀ command ∈ idle, ∀ s, step s command = some s) :
    replay step s (log ++ idle) = some s' := by
  rw [replay_append, hlog, Option.bind_some]
  clear hlog
  induction idle with
  | nil => rfl
  | cons command rest ih =>
      simp only [replay, List.foldlM_cons, hidle command (List.mem_cons_self ..)]
      exact ih fun other hother => hidle other (List.mem_cons_of_mem _ hother)

/-- The replica takes the next command of a log that its writer was not refused. -/
theorem replay_next {log : List ι} (hlog : replay step s log = some final)
    (hbehind : replay step s (log.take n) = some behind) (hnext : log[n]? = some command) :
    ∃ next, step behind command = some next ∧
      replay step s (log.take (n + 1)) = some next := by
  have htaken : log.take (n + 1) = log.take n ++ [command] := by
    rw [List.take_add_one, hnext]
    rfl
  have hsnoc := @replay_snoc _ _ step s (log.take n) command
  rw [← htaken, hbehind, Option.bind_some] at hsnoc
  cases hstep : step behind command with
  | some next => exact ⟨next, rfl, hsnoc.trans hstep⟩
  | none =>
      have hsplit := @replay_append _ _ step s (log.take (n + 1)) (log.drop (n + 1))
      rw [List.take_append_drop, hlog, hsnoc, hstep] at hsplit
      cases hsplit

end Replay
