import Mathlib.Data.List.Range
import Mathlib.Logic.Function.Basic

/-! An array whose first entries are live: the loop that closes a gap, and what
it does to the list of live entries. -/

namespace Compaction

variable {α β : Type}

/-- Moves every entry between `i` and `last` one place down. -/
def shiftDown (i last : Nat) (a : Nat → α) : Nat → α :=
  (List.range' i (last - i)).foldl (fun a j => Function.update a j (a (j + 1))) a

def live (n : Nat) (a : Nat → α) : List α := (List.range n).map a

theorem shift_apply (count i : Nat) (a : Nat → α) (k : Nat) :
    (List.range' i count).foldl (fun a j => Function.update a j (a (j + 1))) a k =
      if i ≤ k ∧ k < i + count then a (k + 1) else a k := by
  induction count generalizing k with
  | zero =>
      rw [if_neg (by omega)]
      rfl
  | succ count ih =>
      rw [List.range'_1_concat, List.foldl_append, List.foldl_cons, List.foldl_nil,
        Function.update_apply]
      split
      · next hlast =>
        rw [ih, if_neg (by omega), if_pos (by omega), hlast]
      · next hbelow =>
        rw [ih]
        split
        · rw [if_pos (by omega)]
        · rw [if_neg (by omega)]

theorem shiftDown_apply (i last : Nat) (a : Nat → α) (k : Nat) :
    shiftDown i last a k = if i ≤ k ∧ k < last then a (k + 1) else a k := by
  rw [shiftDown, shift_apply]
  split
  · next hinside => rw [if_pos (by omega)]
  · next houtside => rw [if_neg (by omega)]

@[simp] theorem length_live (n : Nat) (a : Nat → α) : (live n a).length = n := by
  simp [live]

theorem getElem?_live (n : Nat) (a : Nat → α) (k : Nat) :
    (live n a)[k]? = if k < n then some (a k) else none := by
  unfold live
  split
  · next hlive => simp [hlive]
  · next hdead => simp [Nat.le_of_not_lt hdead]

theorem mem_live : x ∈ live n a ↔ ∃ k < n, a k = x := by
  simp [live]

theorem live_congr (hsame : ∀ k < n, a k = b k) : live n a = live n b :=
  List.map_congr_left fun k hk => hsame k (List.mem_range.mp hk)

theorem live_succ (n : Nat) (a : Nat → α) : live (n + 1) a = live n a ++ [a n] := by
  simp [live, List.range_succ]

theorem map_live (f : α → β) (n : Nat) (a : Nat → α) :
    (live n a).map f = live n fun k => f (a k) := by
  simp [live]

theorem live_update_of_le (hle : n ≤ k) (value : α) :
    live n (Function.update a k value) = live n a :=
  live_congr fun j hj => Function.update_of_ne (by omega) ..

theorem live_shiftDown (a : Nat → α) (hi : i < n) :
    live (n - 1) (shiftDown i (n - 1) a) = (live n a).eraseIdx i := by
  refine List.ext_getElem? fun k => ?_
  rw [getElem?_live, List.getElem?_eraseIdx, shiftDown_apply, getElem?_live, getElem?_live]
  by_cases hbelow : k < i
  · rw [if_pos (by omega), if_neg (by omega), if_pos hbelow, if_pos (by omega)]
  · rw [if_neg hbelow]
    by_cases hlast : k < n - 1
    · rw [if_pos hlast, if_pos (by omega), if_pos (by omega)]
    · rw [if_neg hlast, if_neg (by omega)]

theorem live_update (a : Nat → α) (k n : Nat) (value : α) :
    live n (Function.update a k value) = (live n a).set k value := by
  apply List.ext_getElem?
  intro j
  rw [getElem?_live, List.getElem?_set, getElem?_live, length_live, Function.update_apply]
  split
  · next hlive =>
    by_cases hsame : j = k
    · subst hsame
      simp [hlive]
    · simp [hsame, Ne.symm hsame]
  · next hdead =>
    split
    · next hsame => rw [if_neg (by omega)]
    · rfl

/-! Several arrays that one loop moves together. -/

section Parallel

variable {σ : Type}

/-- Runs `move` on every index from `i` up to `last`. -/
def closeGap (move : σ → Nat → σ) (i last : Nat) (s : σ) : σ :=
  (List.range' i (last - i)).foldl move s

/-- `a'` is `a` without its entry `i`, and the place that falls free holds `zero`. -/
structure Vacates (n i : Nat) (zero : α) (a a' : Nat → α) : Prop where
  live_eq : live (n - 1) a' = (live n a).eraseIdx i
  freed : a' (n - 1) = zero

/-- The loop moves each of the arrays it moves in every turn. -/
theorem get_closeGap {move : σ → Nat → σ} (get : σ → Nat → α)
    (hmove : ∀ s j, get (move s j) = Function.update (get s) j (get s (j + 1)))
    (i last : Nat) (s : σ) : get (closeGap move i last s) = shiftDown i last (get s) := by
  unfold closeGap shiftDown
  generalize List.range' i (last - i) = indices
  induction indices generalizing s with
  | nil => rfl
  | cons j rest ih =>
      rw [List.foldl_cons, List.foldl_cons, ih, hmove]

theorem same_closeGap {move : σ → Nat → σ} (get : σ → α)
    (hmove : ∀ s j, get (move s j) = get s) (i last : Nat) (s : σ) :
    get (closeGap move i last s) = get s := by
  unfold closeGap
  generalize List.range' i (last - i) = indices
  induction indices generalizing s with
  | nil => rfl
  | cons j rest ih => rw [List.foldl_cons, ih, hmove]

theorem live_closeGap {move clear : σ → Nat → σ} (get : σ → Nat → α)
    (hmove : ∀ s j, get (move s j) = Function.update (get s) j (get s (j + 1)))
    (hclear : ∀ s j, get (clear s j) = get s) (hi : i < n) (s : σ) :
    live (n - 1) (get (clear (closeGap move i (n - 1) s) (n - 1))) =
      (live n (get s)).eraseIdx i := by
  rw [hclear, get_closeGap get hmove, live_shiftDown _ hi]

/-- And what is cleared after the loop falls free. -/
theorem vacates_closeGap {move clear : σ → Nat → σ} {zero : α} (get : σ → Nat → α)
    (hmove : ∀ s j, get (move s j) = Function.update (get s) j (get s (j + 1)))
    (hclear : ∀ s j, get (clear s j) = Function.update (get s) j zero) (hi : i < n) (s : σ) :
    Vacates n i zero (get s) (get (clear (closeGap move i (n - 1) s) (n - 1))) where
  live_eq := by
    rw [hclear, live_update_of_le (Nat.le_refl _), get_closeGap get hmove, live_shiftDown _ hi]
  freed := by
    rw [hclear, Function.update_self]

end Parallel

theorem findIdx?_live (p : α → Bool) (n : Nat) (a : Nat → α) :
    (live n a).findIdx? p = (List.range n).find? fun i => p (a i) := by
  induction n with
  | zero => rfl
  | succ n ih =>
      rw [live_succ, List.findIdx?_append, ih, List.range_succ, List.find?_append, length_live]
      cases hp : p (a n) <;> simp [hp]

/-! Removing the first entry that satisfies a predicate. -/

theorem eraseP_congr {p q : α → Bool} {items : List α} (hsame : ∀ x ∈ items, p x = q x) :
    items.eraseP p = items.eraseP q := by
  induction items with
  | nil => rfl
  | cons x rest ih =>
      rw [List.eraseP_cons, List.eraseP_cons, hsame x List.mem_cons_self,
        ih fun y hy => hsame y (List.mem_cons_of_mem _ hy)]

theorem filter_eraseP {p q : α → Bool} (hapart : ∀ x, p x = true → q x = false)
    (items : List α) : (items.eraseP p).filter q = items.filter q := by
  induction items with
  | nil => rfl
  | cons x rest ih =>
      rw [List.eraseP_cons]
      cases hp : p x with
      | true => simp [hapart x hp]
      | false => simp [List.filter_cons, ih]

theorem countP_eraseP (p : α → Bool) (items : List α) :
    (items.eraseP p).countP p = items.countP p - 1 := by
  induction items with
  | nil => rfl
  | cons x rest ih =>
      rw [List.eraseP_cons]
      cases hp : p x with
      | true => simp [hp]
      | false => simp [hp, ih]

theorem countP_eraseP_of_apart {p q : α → Bool} (hapart : ∀ x, p x = true → q x = false)
    (items : List α) : (items.eraseP p).countP q = items.countP q := by
  rw [List.countP_eq_length_filter, List.countP_eq_length_filter, filter_eraseP hapart]

/-! Removing the first entry of a key, once for each key of a list. -/

section Keys

variable {κ : Type} [DecidableEq κ] (key : α → κ)

/-- Without the first `n k` entries of every key `k`. -/
def dropEach (n : κ → Nat) : List α → List α
  | [] => []
  | x :: rest =>
      if n (key x) = 0 then
        x :: dropEach n rest
      else
        dropEach (Function.update n (key x) (n (key x) - 1)) rest

theorem dropEach_zero (items : List α) : dropEach key (fun _ => 0) items = items := by
  induction items with
  | nil => rfl
  | cons x rest ih => rw [dropEach, if_pos rfl, ih]

theorem eraseP_dropEach (n : κ → Nat) (k : κ) (items : List α) :
    (dropEach key n items).eraseP (fun x => key x = k) =
      dropEach key (Function.update n k (n k + 1)) items := by
  induction items generalizing n with
  | nil => rfl
  | cons x rest ih =>
      by_cases hkey : key x = k
      · subst hkey
        rw [dropEach, dropEach, Function.update_self, if_neg (Nat.succ_ne_zero _),
          Function.update_idem]
        by_cases hzero : n (key x) = 0
        · rw [if_pos hzero, List.eraseP_cons_of_pos (by simp), Nat.add_sub_cancel,
            Function.update_eq_self]
        · rw [if_neg hzero, ih, Function.update_self, Function.update_idem]
          congr 2
          omega
      · rw [dropEach, dropEach, Function.update_of_ne hkey]
        by_cases hzero : n (key x) = 0
        · rw [if_pos hzero, if_pos hzero, List.eraseP_cons_of_neg (by simpa using hkey), ih]
        · rw [if_neg hzero, if_neg hzero, ih, Function.update_of_ne (Ne.symm hkey),
            Function.update_comm hkey]

theorem foldl_eraseP_dropEach (keys : List κ) (n : κ → Nat) (items : List α) :
    keys.foldl (fun items k => items.eraseP fun x => key x = k) (dropEach key n items) =
      dropEach key (fun k => n k + keys.count k) items := by
  induction keys generalizing n with
  | nil => simp
  | cons k keys ih =>
      rw [List.foldl_cons, eraseP_dropEach, ih]
      refine congrArg (dropEach key · items) (funext fun other => ?_)
      rw [Function.update_apply, List.count_cons]
      by_cases hsame : other = k
      · subst hsame
        simp only [if_true, beq_self_eq_true]
        omega
      · simp [hsame, Ne.symm hsame]

/-- Taking out the first entry of each listed key, as often as it is listed. -/
theorem foldl_eraseP (keys : List κ) (items : List α) :
    keys.foldl (fun items k => items.eraseP fun x => key x = k) items =
      dropEach key (fun k => keys.count k) items := by
  have hrun := foldl_eraseP_dropEach key keys (fun _ => 0) items
  rw [dropEach_zero] at hrun
  simpa using hrun

theorem foldl_eraseP_append (keys : List κ) (items later : List α)
    (habsent : ∀ x ∈ later, key x ∉ keys) :
    keys.foldl (fun items k => items.eraseP fun x => key x = k) (items ++ later) =
      keys.foldl (fun items k => items.eraseP fun x => key x = k) items ++ later := by
  induction keys generalizing items with
  | nil => rfl
  | cons k keys ih =>
      have hlater : later.eraseP (fun x => key x = k) = later := by
        refine List.eraseP_of_forall_not fun x hx hsame => habsent x hx ?_
        rw [of_decide_eq_true hsame]
        exact List.mem_cons_self
      have hhead : (items ++ later).eraseP (fun x => key x = k) =
          items.eraseP (fun x => key x = k) ++ later := by
        rw [List.eraseP_append, hlater]
        split
        · rfl
        · next hnone =>
          rw [List.eraseP_of_forall_not]
          simpa using hnone
      rw [List.foldl_cons, List.foldl_cons, hhead]
      exact ih _ fun x hx hmem => habsent x hx (List.mem_cons_of_mem _ hmem)

end Keys

end Compaction
