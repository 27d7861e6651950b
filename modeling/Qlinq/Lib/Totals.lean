import Mathlib.Algebra.GroupWithZero.Nat
import Mathlib.Algebra.Order.BigOperators.Group.List
import Mathlib.Algebra.Order.Group.Nat

/-! What a list of accounts holds in total, as one of them changes. -/

namespace Totals

variable {α : Type} {held : α → Nat} {accounts : List α} {old new : α}

def total (held : α → Nat) (accounts : List α) : Nat := (accounts.map held).sum

@[simp] theorem total_nil : total held [] = 0 :=
  rfl

@[simp] theorem total_cons (account : α) (rest : List α) :
    total held (account :: rest) = held account + total held rest :=
  List.sum_cons

theorem total_concat (accounts : List α) (account : α) :
    total held (accounts ++ [account]) = total held accounts + held account := by
  simp [total]

theorem le_total (held : α → Nat) (hmem : old ∈ accounts) : held old ≤ total held accounts :=
  List.le_sum_of_mem (List.mem_map_of_mem hmem)

theorem total_le_total {least : α → Nat} (hle : ∀ account ∈ accounts, least account ≤ held account) :
    total least accounts ≤ total held accounts :=
  List.sum_le_sum hle

theorem total_set (held : α → Nat) (hold : accounts[index]? = some old) (new : α) :
    total held (accounts.set index new) + held old = total held accounts + held new := by
  induction accounts generalizing index with
  | nil => cases hold
  | cons account rest ih =>
      cases index with
      | zero =>
          cases hold
          simp only [List.set_cons_zero, total_cons]
          omega
      | succ index =>
          have hrest := ih hold
          simp only [List.set_cons_succ, total_cons]
          omega

theorem total_eraseIdx (held : α → Nat) (hold : accounts[index]? = some old) :
    total held (accounts.eraseIdx index) + held old = total held accounts := by
  induction accounts generalizing index with
  | nil => cases hold
  | cons account rest ih =>
      cases index with
      | zero =>
          cases hold
          rw [List.eraseIdx_cons_zero, total_cons, Nat.add_comm]
      | succ index =>
          rw [List.eraseIdx_cons_succ, total_cons, total_cons, Nat.add_assoc, ih hold]

/-- One account changes, told by its key. -/
theorem total_map_key {κ : Type} [DecidableEq κ] (held : α → Nat) (key : α → κ) (change : α → α)
    (hunique : (accounts.map key).Nodup) (hmem : old ∈ accounts) :
    total held (accounts.map fun account =>
        if key account = key old then change account else account) + held old =
      total held accounts + held (change old) := by
  induction accounts with
  | nil => cases hmem
  | cons account rest ih =>
      obtain ⟨hfresh, hunique⟩ := List.nodup_cons.mp hunique
      rw [List.map_cons, total_cons, total_cons]
      cases hmem with
      | head =>
          have hrest : (rest.map fun account =>
              if key account = key old then change account else account) = rest := by
            refine (List.map_congr_left fun other hother => ?_).trans (List.map_id rest)
            exact if_neg fun heq => hfresh (List.mem_map.mpr ⟨other, hother, heq⟩)
          rw [if_pos rfl, hrest]
          omega
      | tail _ hmem =>
          have hother : key account ≠ key old := fun heq =>
            hfresh (List.mem_map.mpr ⟨old, hmem, heq.symm⟩)
          rw [if_neg hother]
          have hrest := ih hunique hmem
          omega

/-- Nothing changes in total when no account does. -/
theorem total_map_same (held : α → Nat) {change : α → α}
    (hsame : ∀ account, held (change account) = held account) (accounts : List α) :
    total held (accounts.map change) = total held accounts := by
  rw [total, List.map_map]
  exact congrArg List.sum (List.map_congr_left fun account _ => hsame account)

/-- Accounts of one or nothing are counted. -/
theorem total_toNat (p : α → Bool) (accounts : List α) :
    total (fun account => (p account).toNat) accounts = accounts.countP p := by
  induction accounts with
  | nil => rfl
  | cons account rest ih =>
      rw [total_cons, ih, List.countP_cons, Nat.add_comm]
      cases p account <;> rfl

end Totals
