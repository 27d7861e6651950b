import Mathlib.Tactic.Common

/-! Decoding a stream that arrives in chunks. -/

namespace Incremental

/-- What a decoder finds at the front of a buffer. -/
inductive Verdict (β ε : Type) where
  | needMore
  | failed (error : ε)
  | decoded (value : β) (consumed : Nat)
  deriving DecidableEq, Repr

variable {α β ε σ : Type}

/-- More input never changes a verdict other than `needMore`. -/
structure Lawful (decode : List α → Verdict β ε) : Prop where
  nil : decode [] = .needMore
  consumed : ∀ {src value consumed}, decode src = .decoded value consumed →
    0 < consumed ∧ consumed ≤ src.length
  decoded_append : ∀ {src value consumed}, decode src = .decoded value consumed →
    ∀ more, decode (src ++ more) = .decoded value consumed
  failed_append : ∀ {src error}, decode src = .failed error →
    ∀ more, decode (src ++ more) = .failed error

/-- What a decode loop does with its verdicts; the handler answers whether the loop
goes on. -/
structure Handler (σ β ε : Type) where
  handle : σ → β → σ × Bool
  fail : σ → ε → σ

/-- The decode loop; each round takes a unit of fuel. -/
def drive (decode : List α → Verdict β ε) (handler : Handler σ β ε) :
    Nat → σ → List α → σ × List α
  | 0, s, src => (s, src)
  | fuel + 1, s, src =>
      match decode src with
      | .needMore => (s, src)
      | .failed error => (handler.fail s error, src)
      | .decoded value consumed =>
          match handler.handle s value with
          | (s, false) => (s, src)
          | (s, true) => drive decode handler fuel s (src.drop consumed)

/-- The decode loop on all that is buffered. -/
def drain (decode : List α → Verdict β ε) (handler : Handler σ β ε) (s : σ)
    (src : List α) : σ × List α :=
  drive decode handler src.length s src

/-- A chunk joins what was left over. -/
def feed (decode : List α → Verdict β ε) (handler : Handler σ β ε) (s : σ × List α)
    (chunk : List α) : σ × List α :=
  drain decode handler s.1 (s.2 ++ chunk)

/-- A loop that stopped stops again at the same place. -/
structure Absorbing (handler : Handler σ β ε) : Prop where
  handle : ∀ {s value s'}, handler.handle s value = (s', false) →
    handler.handle s' value = (s', false)
  fail : ∀ s error, handler.fail (handler.fail s error) error = handler.fail s error

variable {decode : List α → Verdict β ε} {handler : Handler σ β ε}

theorem drive_succ_fuel (hlawful : Lawful decode) (hfuel : src.length ≤ fuel) (s : σ) :
    drive decode handler (fuel + 1) s src = drive decode handler fuel s src := by
  induction fuel generalizing s src with
  | zero =>
      have hnil : src = [] := List.length_eq_zero_iff.mp (by omega)
      simp only [hnil, drive, hlawful.nil]
  | succ fuel ih =>
      rw [drive, drive]
      split
      · rfl
      · rfl
      · next value consumed hdecode =>
          obtain ⟨hpos, _⟩ := hlawful.consumed hdecode
          split
          · rfl
          · apply ih
            rw [List.length_drop]
            omega

/-- The loop ends before its fuel does. -/
theorem drive_fuel (hlawful : Lawful decode) (hfuel : src.length ≤ fuel) (s : σ) :
    drive decode handler fuel s src = drain decode handler s src := by
  induction hfuel with
  | refl => rfl
  | step hle ih => rw [drive_succ_fuel hlawful hle, ih]

theorem drain_decoded (hlawful : Lawful decode)
    (hdecode : decode src = .decoded value consumed) (s : σ) :
    drain decode handler s src =
      match handler.handle s value with
      | (s, false) => (s, src)
      | (s, true) => drain decode handler s (src.drop consumed) := by
  obtain ⟨hpos, hle⟩ := hlawful.consumed hdecode
  obtain ⟨fuel, hfuel⟩ := Nat.exists_eq_succ_of_ne_zero (show src.length ≠ 0 by omega)
  rw [drain, hfuel, drive, hdecode]
  simp only
  split
  · rfl
  · apply drive_fuel hlawful
    rw [List.length_drop]
    omega

theorem drain_failed (hlawful : Lawful decode) (hdecode : decode src = .failed error)
    (s : σ) : drain decode handler s src = (handler.fail s error, src) := by
  cases src with
  | nil => simp [hlawful.nil] at hdecode
  | cons head rest => rw [drain, List.length_cons, drive, hdecode]

theorem drain_needMore (hdecode : decode src = .needMore) (s : σ) :
    drain decode handler s src = (s, src) := by
  cases src with
  | nil => rfl
  | cons head rest => rw [drain, List.length_cons, drive, hdecode]

/-- Input can be drained in two parts. -/
theorem drain_append (hlawful : Lawful decode) (habsorbing : Absorbing handler) (s : σ)
    (src more : List α) :
    drain decode handler s (src ++ more) =
      feed decode handler (drain decode handler s src) more := by
  induction hlength : src.length using Nat.strongRecOn generalizing s src with
  | ind length ih =>
      cases hdecode : decode src with
      | needMore => rw [drain_needMore hdecode, feed]
      | failed error =>
          have hlater := hlawful.failed_append hdecode more
          rw [drain_failed hlawful hdecode, feed, drain_failed hlawful hlater,
            drain_failed hlawful hlater, habsorbing.fail]
      | decoded value consumed =>
          have hlater := hlawful.decoded_append hdecode more
          obtain ⟨hpos, hle⟩ := hlawful.consumed hdecode
          rw [drain_decoded hlawful hdecode, drain_decoded hlawful hlater]
          cases hhandle : handler.handle s value with
          | mk s' goesOn =>
              cases goesOn with
              | false =>
                  simp only [feed]
                  rw [drain_decoded hlawful hlater, habsorbing.handle hhandle]
              | true =>
                  simp only
                  rw [List.drop_append_of_le_length hle]
                  exact ih _ (by rw [List.length_drop]; omega) s' _ rfl

/-- However the input is cut, the loop ends in the same state with the same bytes
left over. -/
theorem feed_chunks (hlawful : Lawful decode) (habsorbing : Absorbing handler) (s : σ)
    (chunks : List (List α)) :
    chunks.foldl (feed decode handler) (s, []) = drain decode handler s chunks.flatten := by
  have hall : ∀ src, chunks.foldl (feed decode handler) (drain decode handler s src) =
      drain decode handler s (src ++ chunks.flatten) := by
    induction chunks with
    | nil => simp
    | cons chunk rest ih =>
        intro src
        rw [List.foldl_cons, ← drain_append hlawful habsorbing, ih, List.flatten_cons,
          List.append_assoc]
  exact hall []

/-! ### Collecting -/

/-- The values decoded so far and the error that ended them. -/
structure Collected (β ε : Type) where
  values : List β := []
  error : Option ε := none
  deriving DecidableEq, Repr

def collect : Handler (Collected β ε) β ε where
  handle s value := ({ s with values := s.values ++ [value] }, true)
  fail s error := { s with error := some error }

theorem absorbing_collect : Absorbing (collect : Handler (Collected β ε) β ε) where
  handle := by
    intro s value s' hstop
    cases hstop
  fail _ _ := rfl

/-- The loop stops where the decoder needs more or fails. -/
theorem drain_collect_ends (hlawful : Lawful decode) (s : Collected β ε) (src : List α) :
    (decode (drain decode collect s src).2 = .needMore ∧
        (drain decode collect s src).1.error = s.error) ∨
      ∃ error, decode (drain decode collect s src).2 = .failed error ∧
        (drain decode collect s src).1.error = some error := by
  induction hlength : src.length using Nat.strongRecOn generalizing s src with
  | ind length ih =>
      cases hdecode : decode src with
      | needMore =>
          rw [drain_needMore hdecode]
          exact Or.inl ⟨hdecode, rfl⟩
      | failed error =>
          rw [drain_failed hlawful hdecode]
          exact Or.inr ⟨error, hdecode, rfl⟩
      | decoded value consumed =>
          obtain ⟨hpos, hle⟩ := hlawful.consumed hdecode
          rw [drain_decoded hlawful hdecode]
          exact ih _ (by rw [List.length_drop]; omega)
            { s with values := s.values ++ [value] } _ rfl

/-- Any sequence of encodings is decoded to its values. -/
theorem drain_collect_flatMap (hlawful : Lawful decode) {encode : γ → List α}
    {message : γ → β} {items : List γ}
    (hencode : ∀ item ∈ items, decode (encode item) =
      .decoded (message item) (encode item).length)
    (s : Collected β ε) :
    drain decode collect s (items.flatMap encode) =
      ({ s with values := s.values ++ items.map message }, []) := by
  induction items generalizing s with
  | nil => simpa using drain_needMore hlawful.nil s
  | cons item rest ih =>
      obtain ⟨hitem, hrest⟩ := List.forall_mem_cons.mp hencode
      have hfront := hlawful.decoded_append hitem (rest.flatMap encode)
      rw [List.flatMap_cons, drain_decoded hlawful hfront]
      simp only [collect, List.drop_left]
      have hall := ih hrest { s with values := s.values ++ [message item] }
      simp only [collect] at hall
      rw [hall]
      simp

/-- What has been decoded stays in front. -/
theorem prefix_drain_collect (hlawful : Lawful decode) (s : Collected β ε) (src : List α) :
    s.values <+: (drain decode collect s src).1.values := by
  induction hlength : src.length using Nat.strongRecOn generalizing s src with
  | ind length ih =>
      cases hdecode : decode src with
      | needMore => simp only [drain_needMore hdecode, List.prefix_rfl]
      | failed error =>
          simp only [drain_failed hlawful hdecode, collect, List.prefix_rfl]
      | decoded value consumed =>
          obtain ⟨hpos, hle⟩ := hlawful.consumed hdecode
          rw [drain_decoded hlawful hdecode]
          exact (List.prefix_append s.values [value]).trans
            (ih _ (by rw [List.length_drop]; omega) { s with values := s.values ++ [value] } _ rfl)

end Incremental
