import Qlinq.Interfaces
import Qlinq.Lib.Keyed

namespace Qlinq

open ListDifference

/-! An update of the interface monitor, applied to the snapshot it starts from. -/

/-- What the diff follows of an interface. -/
structure IfaceState where
  index : UInt32
  isUp : Bool
  addrs : List IfmonAddr
  deriving DecidableEq, Repr

def IfmonIface.state (iface : IfmonIface) : IfaceState where
  index := iface.index
  isUp := iface.isUp
  addrs := iface.addrs

/-- The snapshot names no interface twice, and no interface an address. -/
structure IfmonList.Distinct (list : IfmonList) : Prop where
  indices : list.indices.Nodup
  addrs : ∀ iface ∈ list.ifaces, iface.addrs.Nodup

def IfmonList.states (list : IfmonList) : List IfaceState := list.ifaces.map IfmonIface.state

namespace IfaceState

def patch (state : IfaceState) (diff : IfmonIfaceDiff) : IfaceState where
  index := state.index
  isUp := if diff.linkStateChanged then diff.isUp else state.isUp
  addrs := ListDifference.patch state.addrs diff.addrsRemoved diff.addrsAdded

/-- The same interface with the same link state and the same addresses, in some order. -/
structure Agrees (a b : IfaceState) : Prop where
  index : a.index = b.index
  isUp : a.isUp = b.isUp
  addrs : a.addrs.Perm b.addrs

theorem Agrees.refl (state : IfaceState) : state.Agrees state := ⟨rfl, rfl, .refl _⟩

/-- The same interfaces in some order, each with the same state. -/
structure SameStates (as bs : List IfaceState) : Prop where
  indices : (as.map IfaceState.index).Perm (bs.map IfaceState.index)
  agrees : ∀ a ∈ as, ∃ b ∈ bs, a.Agrees b

end IfaceState

namespace IfmonUpdate

def isEmpty (update : IfmonUpdate) : Bool :=
  update.added.isEmpty && update.removed.isEmpty && update.modified.isEmpty

def patchState (update : IfmonUpdate) (state : IfaceState) : IfaceState :=
  match update.modified.find? fun diff => diff.index = state.index with
  | none => state
  | some diff => state.patch diff

/-- Drops the removed interfaces, changes the modified ones, and looks up the added ones in the
snapshot that the update carries. -/
def applyTo (update : IfmonUpdate) (states : List IfaceState) : List IfaceState :=
  ((states.filter fun state => state.index ∉ update.removed).map update.patchState) ++
    update.added.filterMap fun index => (update.interfaces.find index).map IfmonIface.state

end IfmonUpdate

variable {prev curr : IfmonList} {old iface : IfmonIface}

theorem IfmonList.find_eq_some_iff (hdistinct : curr.Distinct) :
    curr.find index = some iface ↔ iface ∈ curr.ifaces ∧ iface.index = index :=
  Keyed.lookup_eq_some_iff hdistinct.indices

theorem IfmonList.mem_indices_iff (hdistinct : curr.Distinct) :
    index ∈ curr.indices ↔ ∃ iface, curr.find index = some iface := by
  simp only [find_eq_some_iff hdistinct, indices, List.mem_map]

namespace IfmonIfaceDiff

/-- The difference of two states of an interface turns one into the other. -/
theorem patch_ofPair (hold : old.addrs.Nodup) (hnew : iface.addrs.Nodup)
    (hindex : old.index = iface.index) :
    (old.state.patch (ofPair old iface)).Agrees iface.state where
  index := hindex
  isUp := by
    simp only [IfaceState.patch, ofPair, IfmonIface.state, decide_eq_true_eq]
    split
    · rfl
    · next hsame => exact not_not.mp hsame
  addrs := by
    simp only [IfaceState.patch, addrsAdded_ofPair, addrsRemoved_ofPair]
    exact patch_perm hold hnew

theorem changed_eq_false_iff (hold : old.addrs.Nodup) (hnew : iface.addrs.Nodup)
    (hindex : old.index = iface.index) :
    (ofPair old iface).changed = false ↔
      old.hwAddr = iface.hwAddr ∧ old.state.Agrees iface.state := by
  have haddrs := perm_iff hold hnew
  rw [changed, addrsAdded_ofPair, addrsRemoved_ofPair]
  simp only [Bool.or_eq_false_iff, Bool.not_eq_false', List.isEmpty_iff, ofPair,
    decide_eq_false_iff_not, ne_eq, not_not]
  constructor
  · rintro ⟨⟨⟨hhw, hup⟩, hadded⟩, hremoved⟩
    exact ⟨hhw, hindex, hup, haddrs.mpr ⟨hremoved, hadded⟩⟩
  · rintro ⟨hhw, hagrees⟩
    obtain ⟨hremoved, hadded⟩ := haddrs.mp hagrees.addrs
    exact ⟨⟨⟨hhw, hagrees.isUp⟩, hadded⟩, hremoved⟩

end IfmonIfaceDiff

namespace IfmonUpdate

theorem diffOf_of_find (hfind : prev.find iface.index = some old) :
    diffOf prev iface =
      if (IfmonIfaceDiff.ofPair old iface).changed then
        some (IfmonIfaceDiff.ofPair old iface)
      else
        none := by
  rw [diffOf, hfind]

theorem index_of_diffOf (hdiff : diffOf prev iface = some diff) : diff.index = iface.index := by
  unfold diffOf at hdiff
  split at hdiff
  · cases hdiff
  · split at hdiff
    · cases hdiff
      rfl
    · cases hdiff

theorem find_modified (hcurr : curr.Distinct) (hmem : iface ∈ curr.ifaces) :
    ((generateUpdate prev curr false).modified.find? fun diff => diff.index = iface.index) =
      diffOf prev iface := by
  rw [modified_generateUpdate]
  exact Keyed.lookup_filterMap (fun _ _ => index_of_diffOf) hcurr.indices hmem

/-- An interface of both snapshots takes its new state. -/
theorem patchState_agrees (hprev : prev.Distinct) (hcurr : curr.Distinct)
    (hold : prev.find iface.index = some old) (hmem : iface ∈ curr.ifaces) :
    ((generateUpdate prev curr false).patchState old.state).Agrees iface.state := by
  obtain ⟨holdMem, hindex⟩ := (IfmonList.find_eq_some_iff hprev).mp hold
  have holdAddrs := hprev.addrs old holdMem
  have hnewAddrs := hcurr.addrs iface hmem
  have hstate : old.state.index = iface.index := hindex
  rw [patchState, hstate, find_modified hcurr hmem, diffOf_of_find hold]
  cases hchanged : (IfmonIfaceDiff.ofPair old iface).changed with
  | true => exact IfmonIfaceDiff.patch_ofPair holdAddrs hnewAddrs hindex
  | false => exact ((IfmonIfaceDiff.changed_eq_false_iff holdAddrs hnewAddrs hindex).mp hchanged).2

theorem index_patchState (update : IfmonUpdate) :
    IfaceState.index ∘ update.patchState = IfaceState.index := by
  funext state
  simp only [Function.comp_apply, patchState]
  cases update.modified.find? fun diff => diff.index = state.index with
  | none => rfl
  | some diff => rfl

theorem map_index_states (list : IfmonList) : list.states.map IfaceState.index = list.indices := by
  rw [IfmonList.states, List.map_map]
  rfl

/-- Every interface of the snapshot is found there. -/
theorem map_index_found (hcurr : curr.Distinct) {gained : List UInt32}
    (hgained : gained ⊆ curr.indices) :
    (gained.filterMap fun index => (curr.find index).map IfmonIface.state).map
      IfaceState.index = gained := by
  have hfound : ∀ index ∈ gained,
      ((curr.find index).map IfmonIface.state).map IfaceState.index = some index := by
    intro index hmem
    obtain ⟨iface, hfind⟩ := (IfmonList.mem_indices_iff hcurr).mp (hgained hmem)
    have hindex := ((IfmonList.find_eq_some_iff hcurr).mp hfind).2
    rw [hfind, Option.map_some, Option.map_some]
    exact congrArg some hindex
  rw [List.map_filterMap, List.filterMap_congr hfound]
  exact List.filterMap_some

theorem applyTo_sameStates (hprev : prev.Distinct) (hcurr : curr.Distinct) :
    IfaceState.SameStates ((generateUpdate prev curr false).applyTo prev.states) curr.states where
  indices := by
    have hkept : ((prev.states.filter fun state =>
        state.index ∉ (generateUpdate prev curr false).removed).map
          (generateUpdate prev curr false).patchState).map IfaceState.index =
            beyond prev.indices (beyond prev.indices curr.indices) := by
      rw [List.map_map, index_patchState, removed_generateUpdate, map_filter_beyond,
        map_index_states]
    have hgained := map_index_found hcurr (beyond_subset curr.indices prev.indices)
    rw [applyTo, List.map_append, hkept, added_generateUpdate, map_index_states]
    exact hgained.symm ▸ patch_perm hprev.indices hcurr.indices
  agrees := by
    intro state hmem
    cases List.mem_append.mp hmem with
    | inl hpatched =>
        obtain ⟨before, hbefore, rfl⟩ := List.mem_map.mp hpatched
        obtain ⟨hstate, hlasting⟩ := List.mem_filter.mp hbefore
        obtain ⟨old, hold, rfl⟩ := List.mem_map.mp hstate
        have hprevIndex : old.index ∈ prev.indices := List.mem_map_of_mem hold
        have hcurrIndex : old.index ∈ curr.indices := by
          by_contra hgone
          rw [removed_generateUpdate, decide_eq_true_eq] at hlasting
          exact hlasting (mem_beyond.mpr ⟨hprevIndex, hgone⟩)
        obtain ⟨iface, hfind⟩ := (IfmonList.mem_indices_iff hcurr).mp hcurrIndex
        obtain ⟨hiface, hindex⟩ := (IfmonList.find_eq_some_iff hcurr).mp hfind
        have holdFind := (IfmonList.find_eq_some_iff hprev).mpr ⟨hold, hindex.symm⟩
        exact ⟨iface.state, List.mem_map_of_mem hiface,
          patchState_agrees hprev hcurr holdFind hiface⟩
    | inr hadded =>
        obtain ⟨index, -, hlookup⟩ := List.mem_filterMap.mp hadded
        obtain ⟨iface, hfind, rfl⟩ := Option.map_eq_some_iff.mp hlookup
        have hiface := ((IfmonList.find_eq_some_iff hcurr).mp hfind).1
        exact ⟨iface.state, List.mem_map_of_mem hiface, .refl _⟩

theorem diffOf_self (hcurr : curr.Distinct) (hmem : iface ∈ curr.ifaces) :
    diffOf curr iface = none := by
  have haddrs := hcurr.addrs iface hmem
  have hfind := (IfmonList.find_eq_some_iff hcurr).mpr ⟨hmem, rfl⟩
  have hunchanged := (IfmonIfaceDiff.changed_eq_false_iff haddrs haddrs rfl).mpr
    ⟨rfl, IfaceState.Agrees.refl _⟩
  rw [diffOf_of_find hfind, hunchanged]
  rfl

theorem isEmpty_generateUpdate_self (hcurr : curr.Distinct) (isInitial : Bool) :
    (generateUpdate curr curr isInitial).isEmpty = true := by
  cases isInitial with
  | true => rfl
  | false =>
      have hunmodified : curr.ifaces.filterMap (diffOf curr) = [] :=
        List.filterMap_eq_nil_iff.mpr fun iface hmem => diffOf_self hcurr hmem
      rw [isEmpty, added_generateUpdate, removed_generateUpdate, modified_generateUpdate,
        beyond_self, hunmodified]
      rfl

theorem applyTo_of_isEmpty {update : IfmonUpdate} (hempty : update.isEmpty = true)
    (states : List IfaceState) : update.applyTo states = states := by
  simp only [isEmpty, Bool.and_eq_true, List.isEmpty_iff] at hempty
  obtain ⟨⟨hadded, hremoved⟩, hmodified⟩ := hempty
  have hidentity : update.patchState = id := by
    funext state
    rw [patchState, hmodified]
    rfl
  rw [applyTo, hadded, hremoved, hidentity]
  simp

/-- No change goes unreported. -/
theorem sameStates_of_isEmpty (hprev : prev.Distinct) (hcurr : curr.Distinct)
    (hempty : (generateUpdate prev curr false).isEmpty = true) :
    IfaceState.SameStates prev.states curr.states := by
  have happlied := applyTo_sameStates hprev hcurr
  rwa [applyTo_of_isEmpty hempty] at happlied

/-- The update between two snapshots, applied to the first, gives the second; between a
snapshot and itself it is empty. -/
theorem generateUpdate_exact (hprev : prev.Distinct) (hcurr : curr.Distinct) :
    IfaceState.SameStates ((generateUpdate prev curr false).applyTo prev.states) curr.states ∧
      ∀ isInitial, (generateUpdate curr curr isInitial).isEmpty = true :=
  ⟨applyTo_sameStates hprev hcurr, isEmpty_generateUpdate_self hcurr⟩

/-- An interface whose only address changes its prefix length. -/
def renumbered (prefixLen : UInt8) : IfmonIface where
  index := 1
  name := [101, 110, 48]
  hwAddr := []
  isUp := true
  addrs := [⟨.v4 0x0a000001, prefixLen⟩]
  capped := Nat.succ_le_succ (Nat.zero_le 15)

theorem generateUpdate_exact_renumbered :
    IfaceState.SameStates
        ((generateUpdate ⟨[renumbered 24], by decide⟩ ⟨[renumbered 16], by decide⟩ false).applyTo
          (IfmonList.states ⟨[renumbered 24], by decide⟩))
        (IfmonList.states ⟨[renumbered 16], by decide⟩) ∧
      ∀ isInitial, (generateUpdate ⟨[renumbered 16], by decide⟩ ⟨[renumbered 16], by decide⟩
        isInitial).isEmpty = true :=
  generateUpdate_exact ⟨by decide, by decide⟩ ⟨by decide, by decide⟩

end IfmonUpdate

end Qlinq
