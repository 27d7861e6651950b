import Mathlib.Data.List.Nodup
import Mathlib.Data.List.Perm.Basic
import Mathlib.Logic.Function.Basic
import Qlinq.Lib.Replay
import Qlinq.Protocol

namespace Qlinq

/-! What a subscription table is for: it binds aliases to tracks, and SUBSCRIBE and
UNSUBSCRIBE change what it binds. -/

abbrev Bindings := TrackAlias → Option TrackId

namespace Bindings

def empty : Bindings := fun _ => none

def aliases : List TrackAlias := (List.range 256).map UInt8.ofNat

def size (bindings : Bindings) : Nat := (aliases.filter fun a => (bindings a).isSome).length

def Binds (bindings : Bindings) (track : TrackId) : Prop :=
  ∃ b ∈ aliases, (bindings b).map TrackId.key = some track.key

instance (bindings : Bindings) (track : TrackId) : Decidable (bindings.Binds track) := by
  unfold Binds
  infer_instance

/-- One frame of a subscriber that may bind `limit` tracks; `none` is a frame that an
honest subscriber does not write. -/
def step (limit : Nat) (bindings : Bindings) : ControlFrame → Option Bindings
  | .subscribe a track =>
      if bindings a = some track then
        some bindings
      else if trackIdValid track ∧ bindings a = none ∧ ¬ bindings.Binds track ∧
          bindings.size < limit then
        some (Function.update bindings a (some track))
      else
        none
  | .unsubscribe a track =>
      if bindings a = some track then some (Function.update bindings a none) else none
  | _ => some bindings

theorem mem_aliases (a : TrackAlias) : a ∈ aliases :=
  List.mem_map.mpr ⟨a.toNat, List.mem_range.mpr a.toNat_lt, UInt8.ofNat_toNat⟩

theorem nodup_aliases : aliases.Nodup := by
  apply List.Nodup.map_on _ List.nodup_range
  intro left hleft right hright hsame
  have hvalue := congrArg UInt8.toNat hsame
  rw [UInt8.toNat_ofNat_of_lt' (List.mem_range.mp hleft),
    UInt8.toNat_ofNat_of_lt' (List.mem_range.mp hright)] at hvalue
  exact hvalue

theorem step_idle {frame : ControlFrame} (hidle : frame.subscribes = false) (limit : Nat)
    (bindings : Bindings) : step limit bindings frame = some bindings := by
  cases frame with
  | subscribe a track => cases hidle
  | unsubscribe a track => cases hidle
  | _ => rfl

/-- Every bound track has a valid id. -/
def Valid (bindings : Bindings) : Prop :=
  ∀ a track, bindings a = some track → trackIdValid track = true

theorem valid_empty : Valid empty := fun _ _ h => by cases h

theorem Valid.step {bindings next : Bindings} (hvalid : bindings.Valid)
    (hstep : step limit bindings frame = some next) : next.Valid := by
  have hupdate : ∀ a value, (∀ track, value = some track → trackIdValid track = true) →
      Valid (Function.update bindings a value) := by
    intro a value hvalue b track hbound
    by_cases hsame : b = a
    · subst hsame
      rw [Function.update_self] at hbound
      exact hvalue track hbound
    · rw [Function.update_of_ne hsame] at hbound
      exact hvalid b track hbound
  cases frame with
  | subscribe a track =>
      simp only [Bindings.step] at hstep
      split at hstep
      · obtain rfl := Option.some.inj hstep
        exact hvalid
      split at hstep
      · next hfresh =>
          obtain rfl := Option.some.inj hstep
          refine hupdate a _ fun other hother => ?_
          obtain rfl := Option.some.inj hother
          exact hfresh.1
      · cases hstep
  | unsubscribe a track =>
      simp only [Bindings.step] at hstep
      split at hstep
      · obtain rfl := Option.some.inj hstep
        exact hupdate a none fun _ h => by cases h
      · cases hstep
  | _ =>
      obtain rfl := Option.some.inj hstep
      exact hvalid

theorem bound_of_subscribe {bindings next : Bindings}
    (hstep : Bindings.step limit bindings (.subscribe a track) = some next) :
    next a = some track := by
  simp only [Bindings.step] at hstep
  split at hstep
  · next hbound =>
      obtain rfl := Option.some.inj hstep
      exact hbound
  split at hstep
  · obtain rfl := Option.some.inj hstep
    exact Function.update_self ..
  · cases hstep

theorem valid_replay {start bindings : Bindings} (hvalid : start.Valid)
    (hlog : Replay.replay (step limit) start log = some bindings) : bindings.Valid := by
  induction log generalizing start with
  | nil =>
      obtain rfl := Option.some.inj hlog
      exact hvalid
  | cons frame rest ih =>
      simp only [Replay.replay, List.foldlM_cons] at hlog
      cases hstep : step limit start frame with
      | none =>
          rw [hstep] at hlog
          cases hlog
      | some next =>
          rw [hstep] at hlog
          exact ih (hvalid.step hstep) hlog

end Bindings

namespace SubscriptionTable

open Bindings (Binds)

theorem count_eq_size (table : SubscriptionTable) :
    table.entries.length = Bindings.size table.findByAlias := by
  have hperm : (Keyed.keys Subscription.trackAlias table.entries).Perm
      (Bindings.aliases.filter fun a => (table.findByAlias a).isSome) := by
    apply (List.perm_ext_iff_of_nodup table.aliases_unique
      (Bindings.nodup_aliases.filter _)).mpr
    intro a
    rw [List.mem_filter, ← table.states_isSome]
    have hstate := @getState_isSome_iff a table
    rw [getState] at hstate
    simp only [hstate, Bindings.mem_aliases, true_and, Option.isSome_iff_exists]
  have hlength := hperm.length_eq
  rw [Keyed.keys, List.length_map] at hlength
  exact hlength

theorem binds_iff (table : SubscriptionTable) (track : TrackId) :
    Binds table.findByAlias track ↔ table.find track ≠ none := by
  constructor
  · rintro ⟨a, _, hbound⟩ hnone
    obtain ⟨bound, hbound, hkey⟩ := Option.map_eq_some_iff.mp hbound
    obtain ⟨entry, hfind, _⟩ :=
      find_of_findAlias (findAlias_eq_some_iff_bound.mpr ⟨bound, hbound, hkey⟩)
    rw [hnone] at hfind
    cases hfind
  · intro hfound
    obtain ⟨entry, hfind⟩ := Option.ne_none_iff_exists'.mp hfound
    obtain ⟨hbound, hkey⟩ := bound_of_find hfind
    exact ⟨entry.trackAlias, Bindings.mem_aliases _,
      Option.map_eq_some_iff.mpr ⟨entry.trackId, hbound, hkey⟩⟩

/-- A new subscription binds its track. -/
theorem findByAlias_add {table table' : SubscriptionTable} (hfind : table.find track = none)
    (hadd : table.add track a = some table') :
    table.findByAlias a = none ∧
      table'.findByAlias = Function.update table.findByAlias a (some track) := by
  have hunbound : ¬ Binds table.findByAlias track := fun h => (binds_iff table track).mp h hfind
  rcases add_cases hadd with ⟨hbound, _⟩ | ⟨hfree, hbound, _, _, hothers⟩
  · exact absurd ⟨a, Bindings.mem_aliases a, by rw [hbound]; rfl⟩ hunbound
  refine ⟨hfree, funext fun b => ?_⟩
  by_cases hb : b = a
  · rw [hb, Function.update_self, hbound]
  · rw [Function.update_of_ne hb]
    cases hothers b hb with
    | inl hkept => exact hkept.1
    | inr hmoved =>
        obtain ⟨⟨old, hold, hkey⟩, _⟩ := hmoved
        exact absurd ⟨b, Bindings.mem_aliases b, by rw [hold, Option.map_some, hkey]⟩ hunbound

theorem findByAlias_remove {table : SubscriptionTable}
    (hbound : table.findByAlias a = some track) :
    (table.remove track).findByAlias = Function.update table.findByAlias a none := by
  funext b
  rw [remove_of_bound hbound, findByAlias_removeAlias, Function.update_apply]

theorem capacity_remove (table : SubscriptionTable) (track : TrackId) :
    (table.remove track).capacity = table.capacity := by
  unfold remove
  split <;> rfl

/-- A table with room takes every frame that the bindings take. -/
theorem add_of_step {table : SubscriptionTable} (hroom : limit ≤ table.capacity)
    (hvalid : Bindings.Valid table.findByAlias)
    (hstep : Bindings.step limit table.findByAlias (.subscribe a track) = some next) :
    (table.findByAlias a).all (fun held => held.key == track.key) = true ∧
      ∃ table', table.add track a = some table' ∧ table'.findByAlias = next ∧
        table'.capacity = table.capacity := by
  simp only [Bindings.step] at hstep
  split at hstep
  · next hbound =>
      obtain rfl := Option.some.inj hstep
      refine ⟨by simp [hbound], table, ?_, rfl, rfl⟩
      have hname : ¬ maxTrackName ≤ track.name.length := by
        have htrack := hvalid a track hbound
        simp only [trackIdValid, Bool.and_eq_true, decide_eq_true_eq] at htrack
        omega
      obtain ⟨holder, hholder, rfl⟩ := Option.map_eq_some_iff.mp hbound
      unfold add
      rw [if_neg hname]
      split
      · next found hfound =>
          rw [hholder] at hfound
          obtain rfl := Option.some.inj hfound
          simp
      · next hfree =>
          rw [hholder] at hfree
          cases hfree
  split at hstep
  · next hfresh =>
      obtain ⟨htrack, hfree, hunbound, hsize⟩ := hfresh
      obtain rfl := Option.some.inj hstep
      refine ⟨by simp [hfree], ?_⟩
      have hname : ¬ maxTrackName ≤ track.name.length := by
        simp only [trackIdValid, Bool.and_eq_true, decide_eq_true_eq] at htrack
        omega
      have hfind : table.find track = none := by
        rw [← not_not (a := table.find track = none)]
        exact fun h => hunbound ((binds_iff table track).mpr h)
      have hspace : table.entries.length < table.capacity := by
        rw [count_eq_size]
        omega
      have hadd : ∃ table', table.add track a = some table' ∧
          table'.capacity = table.capacity := by
        unfold add
        rw [if_neg hname]
        split
        · next holder hholder =>
            simp [findByAlias, hholder] at hfree
        · split
          · next entry hentry =>
              rw [find, hentry] at hfind
              cases hfind
          · rw [if_pos hspace]
            exact ⟨_, rfl, rfl⟩
      obtain ⟨table', hadd, hcapacity⟩ := hadd
      exact ⟨table', hadd, (findByAlias_add hfind hadd).2, hcapacity⟩
  · cases hstep

theorem remove_of_step {table : SubscriptionTable}
    (hstep : Bindings.step limit table.findByAlias (.unsubscribe a track) = some next) :
    table.findByAlias a = some track ∧ (table.remove track).findByAlias = next := by
  simp only [Bindings.step] at hstep
  split at hstep
  · next hbound =>
      obtain rfl := Option.some.inj hstep
      exact ⟨hbound, findByAlias_remove hbound⟩
  · cases hstep

end SubscriptionTable

end Qlinq
