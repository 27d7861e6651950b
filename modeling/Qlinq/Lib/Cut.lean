import Mathlib.Data.List.Infix
import Qlinq.Lib.Incremental

/-! A stream of encodings that is cut off. -/

namespace Incremental

variable {α β γ ε : Type} {decode : List α → Verdict β ε} {encode : γ → List α}
variable {message : γ → β}

/-- A decoder asks for more as long as one encoding is cut off. -/
theorem needMore_of_cut (hlawful : Lawful decode)
    (hitem : decode (encode item) = .decoded (message item) (encode item).length)
    (hcut : src <+: encode item) (hshort : src.length < (encode item).length) :
    decode src = .needMore := by
  obtain ⟨more, hmore⟩ := hcut
  cases hdecode : decode src with
  | needMore => rfl
  | failed error =>
      have hwhole := hlawful.failed_append hdecode more
      rw [hmore, hitem] at hwhole
      cases hwhole
  | decoded value consumed =>
      have hwhole := hlawful.decoded_append hdecode more
      obtain ⟨-, hle⟩ := hlawful.consumed hdecode
      rw [hmore, hitem] at hwhole
      injection hwhole with hvalue hconsumed
      omega

/-- Of a stream that is cut off the encodings that are whole are decoded. -/
theorem drain_collect_cut (hlawful : Lawful decode) {items : List γ}
    (hencode : ∀ item ∈ items, decode (encode item) =
      .decoded (message item) (encode item).length)
    (hcut : src <+: items.flatMap encode) (s : Collected β ε) :
    ∃ whole rest, whole <+: items ∧ src = whole.flatMap encode ++ rest ∧
      (∀ front, front <+: items → front.flatMap encode <+: src → front <+: whole) ∧
      drain decode collect s src = ({ s with values := s.values ++ whole.map message }, rest) := by
  induction items generalizing src s with
  | nil =>
      have hnil : src = [] := by simpa using hcut
      subst hnil
      refine ⟨[], [], List.prefix_rfl, rfl, fun front hfront _ => hfront, ?_⟩
      rw [drain_needMore hlawful.nil, List.map_nil, List.append_nil]
  | cons item items ih =>
      obtain ⟨hitem, hitems⟩ := List.forall_mem_cons.mp hencode
      rw [List.flatMap_cons] at hcut
      cases lt_or_ge src.length (encode item).length with
      | inl hshort =>
          have hfront := List.prefix_of_prefix_length_le hcut (List.prefix_append _ _) hshort.le
          refine ⟨[], src, List.nil_prefix, rfl, ?_, ?_⟩
          · intro front hfront hthere
            cases front with
            | nil => exact List.prefix_rfl
            | cons first front =>
                obtain ⟨rfl, -⟩ := List.cons_prefix_cons.mp hfront
                have hle := hthere.length_le
                rw [List.flatMap_cons, List.length_append] at hle
                omega
          rw [drain_needMore (needMore_of_cut hlawful hitem hfront hshort), List.map_nil,
            List.append_nil]
      | inr hlong =>
          obtain ⟨later, rfl⟩ :=
            List.prefix_of_prefix_length_le (List.prefix_append _ _) hcut hlong
          have hlater := (List.prefix_append_right_inj _).mp hcut
          obtain ⟨whole, rest, hwhole, hsplit, hmost, hdrain⟩ := ih hitems hlater
            { s with values := s.values ++ [message item] }
          refine ⟨item :: whole, rest, (List.prefix_cons_inj item).mpr hwhole, ?_, ?_, ?_⟩
          · rw [hsplit, List.flatMap_cons, List.append_assoc]
          · intro front hfront hthere
            cases front with
            | nil => exact List.nil_prefix
            | cons first front =>
                obtain ⟨rfl, hlater⟩ := List.cons_prefix_cons.mp hfront
                rw [List.flatMap_cons, List.prefix_append_right_inj] at hthere
                exact (List.prefix_cons_inj first).mpr (hmost front hlater hthere)
          · rw [drain_decoded hlawful (hlawful.decoded_append hitem later)]
            simp only [collect, List.drop_left] at hdrain ⊢
            rw [hdrain, List.append_assoc, List.map_cons]
            rfl

/-- Encodings of which none begins another can be told apart in a stream. -/
theorem prefix_of_flatMap_prefix {items others : List γ} (hsome : ∀ item, encode item ≠ [])
    (hcode : ∀ item ∈ items, ∀ other ∈ others,
      encode item <+: encode other ∨ encode other <+: encode item → item = other)
    (hbegins : items.flatMap encode <+: others.flatMap encode) : items <+: others := by
  induction items generalizing others with
  | nil => exact List.nil_prefix
  | cons item items ih =>
      cases others with
      | nil =>
          rw [List.flatMap_nil, List.prefix_nil, List.flatMap_cons] at hbegins
          exact absurd (List.append_eq_nil_iff.mp hbegins).1 (hsome item)
      | cons other others =>
          rw [List.flatMap_cons, List.flatMap_cons] at hbegins
          have hcompare : encode item <+: encode other ∨ encode other <+: encode item :=
            List.prefix_or_prefix_of_prefix ((List.prefix_append _ _).trans hbegins)
              (List.prefix_append _ _)
          obtain rfl := hcode item List.mem_cons_self other List.mem_cons_self hcompare
          have hlater := (List.prefix_append_right_inj _).mp hbegins
          refine (List.prefix_cons_inj item).mpr (ih ?_ hlater)
          intro found hfound against hagainst
          exact hcode found (List.mem_cons_of_mem _ hfound) against
            (List.mem_cons_of_mem _ hagainst)

end Incremental
