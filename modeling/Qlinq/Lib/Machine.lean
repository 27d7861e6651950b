import Mathlib.Data.List.Basic

/-! Runs of a deterministic machine under a condition on its steps. -/

namespace Machine

variable {σ ι : Type} (step : σ → ι → σ)

def run (s : σ) (inputs : List ι) : σ := inputs.foldl step s

/-- Every input meets `ok` in the state it is taken in. -/
def Along (ok : σ → ι → Prop) : σ → List ι → Prop
  | _, [] => True
  | s, input :: rest => ok s input ∧ Along ok (step s input) rest

instance decidableAlong {ok : σ → ι → Prop} [∀ s input, Decidable (ok s input)] :
    ∀ s inputs, Decidable (Along step ok s inputs)
  | _, [] => isTrue trivial
  | s, input :: rest =>
      match decidableAlong (step s input) rest with
      | isTrue hrest => decidable_of_iff (ok s input) (by simp [Along, hrest])
      | isFalse hrest => isFalse fun h => hrest h.2

variable {step}

@[simp] theorem run_nil (s : σ) : run step s [] = s :=
  rfl

@[simp] theorem run_cons (s : σ) (input : ι) (rest : List ι) :
    run step s (input :: rest) = run step (step s input) rest :=
  rfl

theorem run_append (s : σ) (first second : List ι) :
    run step s (first ++ second) = run step (run step s first) second :=
  List.foldl_append

theorem Along.mono {ok weaker : σ → ι → Prop} (himp : ∀ s input, ok s input → weaker s input)
    (halong : Along step ok s inputs) : Along step weaker s inputs := by
  induction inputs generalizing s with
  | nil => trivial
  | cons input rest ih => exact ⟨himp s input halong.1, ih halong.2⟩

theorem Along.and {ok also : σ → ι → Prop} (hok : Along step ok s inputs)
    (halso : Along step also s inputs) :
    Along step (fun s input => ok s input ∧ also s input) s inputs := by
  induction inputs generalizing s with
  | nil => trivial
  | cons input rest ih => exact ⟨⟨hok.1, halso.1⟩, ih hok.2 halso.2⟩

theorem Along.and_mem {ok : σ → ι → Prop} {P : ι → Prop} (halong : Along step ok s inputs)
    (hmem : ∀ input ∈ inputs, P input) :
    Along step (fun s input => ok s input ∧ P input) s inputs := by
  induction inputs generalizing s with
  | nil => trivial
  | cons input rest ih =>
      obtain ⟨hhere, hrest⟩ := List.forall_mem_cons.mp hmem
      exact ⟨⟨halong.1, hhere⟩, ih halong.2 hrest⟩

theorem along_of_forall_mem {ok : σ → ι → Prop}
    (hall : ∀ s, ∀ input ∈ inputs, ok s input) (s : σ) : Along step ok s inputs := by
  induction inputs generalizing s with
  | nil => trivial
  | cons input rest ih =>
      exact ⟨hall s input List.mem_cons_self,
        ih (fun s input hmem => hall s input (List.mem_cons_of_mem _ hmem)) _⟩

theorem along_true (s : σ) (inputs : List ι) : Along step (fun _ _ => True) s inputs :=
  along_of_forall_mem (fun _ _ _ => trivial) s

/-- What holds at the start and survives every admitted step holds after every
run of admitted steps. -/
theorem invariant_run {ok : σ → ι → Prop} {Inv : σ → Prop}
    (hstep : ∀ s input, Inv s → ok s input → Inv (step s input)) (hstart : Inv s)
    (halong : Along step ok s inputs) : Inv (run step s inputs) := by
  induction inputs generalizing s with
  | nil => exact hstart
  | cons input rest ih => exact ih (hstep s input hstart halong.1) halong.2

/-- Two conditions that agree wherever an invariant holds admit the same runs. -/
theorem along_congr (Inv : σ → Prop) {ok other : σ → ι → Prop} (hstart : Inv s)
    (hstep : ∀ s input, Inv s → Inv (step s input))
    (hagree : ∀ s input, Inv s → (ok s input ↔ other s input)) :
    Along step ok s inputs ↔ Along step other s inputs := by
  induction inputs generalizing s with
  | nil => exact Iff.rfl
  | cons input rest ih =>
      simp only [Along]
      rw [hagree s input hstart, ih (hstep s input hstart)]

end Machine
