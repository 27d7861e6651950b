import Mathlib.Data.List.Nodup
import Mathlib.Data.Option.Basic
import Qlinq.PathRemoval

namespace Qlinq

open Compaction

/-! Which remote endpoint a slot is assigned, over the runs of a client. -/

namespace Paths

/-- A slot's own address with the remote endpoint assigned to it. -/
def assignmentOf (slot : PathSlot) : Option SockAddr × Option Nat :=
  (slot.localAddr, slot.localRemoteIndex)

def assignments (t : Paths) : List (Option SockAddr × Option Nat) :=
  t.localSlots.map assignmentOf

/-- The pair names a remote endpoint of the address's own family. -/
def Paired (remotes : List SockAddr) (pair : Option SockAddr × Option Nat) : Prop :=
  ∃ addr remoteIndex, pair = (some addr, some remoteIndex) ∧
    remotes[remoteIndex]?.map SockAddr.family = some addr.family

structure WellAssigned (remotes : List SockAddr)
    (pairs : List (Option SockAddr × Option Nat)) : Prop where
  paired : ∀ pair ∈ pairs, Paired remotes pair
  distinct : 1 < remotes.length → (pairs.map Prod.snd).Nodup

namespace WellAssigned

theorem sublist (hpairs : WellAssigned remotes pairs) (hsub : pairs'.Sublist pairs) :
    WellAssigned remotes pairs' where
  paired := fun pair hpair => hpairs.paired pair (hsub.subset hpair)
  distinct := fun hmany => (hpairs.distinct hmany).sublist (hsub.map Prod.snd)

theorem append (hpairs : WellAssigned remotes pairs) (hpaired : Paired remotes pair)
    (hfree : 1 < remotes.length → pair.2 ∉ pairs.map Prod.snd) :
    WellAssigned remotes (pairs ++ [pair]) where
  paired := by
    intro other hother
    rcases List.mem_append.mp hother with hold | hnew
    · exact hpairs.paired other hold
    · obtain rfl := List.mem_singleton.mp hnew
      exact hpaired
  distinct := by
    intro hmany
    rw [List.map_append, List.map_singleton]
    refine List.nodup_append.mpr ⟨hpairs.distinct hmany, by simp, ?_⟩
    intro index hold last hlast hsame
    obtain rfl := List.mem_singleton.mp hlast
    exact hfree hmany (hsame ▸ hold)

end WellAssigned

theorem assignments_eq (t : Paths) :
    t.assignments = live t.numFds fun i => assignmentOf (t.slots i) :=
  map_live _ _ _

theorem familiesMatch_iff {t : Paths} (hi : i < t.numFds) :
    t.pathEndpointFamiliesMatch i remoteIndex = true ↔
      ∃ addr, (t.slots i).localAddr = some addr ∧
        t.remoteAddrs[remoteIndex]?.map SockAddr.family = some addr.family := by
  obtain ⟨addr, haddr⟩ := Option.isSome_iff_exists.mp (t.bound i hi)
  simp only [pathEndpointFamiliesMatch, hi, haddr, Option.map_some, true_and,
    decide_eq_true_eq, Option.some.injEq, exists_eq_left']
  constructor
  · rintro ⟨-, hfamily⟩
    exact hfamily.symm
  · intro hfamily
    refine ⟨?_, hfamily.symm⟩
    by_contra hout
    rw [List.getElem?_eq_none (by omega)] at hfamily
    simp at hfamily

/-! What leaves the assignments as they are. -/

structure KeepsAssignments (t t' : Paths) : Prop where
  remoteAddrs : t'.remoteAddrs = t.remoteAddrs
  isServer : t'.isServer = t.isServer
  assignments : t'.assignments = t.assignments

namespace KeepsAssignments

theorem refl (t : Paths) : KeepsAssignments t t := ⟨rfl, rfl, rfl⟩

theorem trans (hfirst : KeepsAssignments t t') (hsecond : KeepsAssignments t' t'') :
    KeepsAssignments t t'' where
  remoteAddrs := hsecond.remoteAddrs.trans hfirst.remoteAddrs
  isServer := hsecond.isServer.trans hfirst.isServer
  assignments := hsecond.assignments.trans hfirst.assignments

end KeepsAssignments

theorem keeps_of_slots {t t' : Paths} (hremotes : t'.remoteAddrs = t.remoteAddrs)
    (hserver : t'.isServer = t.isServer) (hcount : t'.numFds = t.numFds)
    (hslots : ∀ i, assignmentOf (t'.slots i) = assignmentOf (t.slots i)) :
    KeepsAssignments t t' where
  remoteAddrs := hremotes
  isServer := hserver
  assignments := by
    rw [assignments_eq, assignments_eq, hcount]
    exact live_congr fun i _ => hslots i

theorem keeps_modifySlot (t : Paths) (i : Nat) {update : PathSlot → PathSlot}
    (hkeeps : ∀ slot, (update slot).localAddr = slot.localAddr)
    (hremote : ∀ slot, (update slot).localRemoteIndex = slot.localRemoteIndex) :
    KeepsAssignments t (t.modifySlot i update hkeeps) := by
  refine keeps_of_slots rfl rfl rfl fun k => ?_
  simp only [modifySlot, Function.update_apply]
  split
  · next hsame =>
    subst hsame
    exact Prod.ext (hkeeps _) (hremote _)
  · rfl

theorem keeps_deferPaths (t : Paths) : KeepsAssignments t t.deferPaths := by
  refine keeps_of_slots rfl rfl rfl fun i => ?_
  simp only [deferPaths]
  split <;> rfl

theorem startClientConnection_eq_some {t : Paths}
    (hstart : t.startClientConnection connected = some (t', opening)) :
    KeepsAssignments t t' ∧ t'.numFds = t.numFds ∧
      opening = { slot := t.slots 0, remoteIndex := 0 } := by
  unfold startClientConnection at hstart
  split at hstart
  · simp at hstart
  · obtain ⟨rfl, rfl⟩ := Prod.mk.inj (Option.some.inj hstart)
    have hkeeps := keeps_deferPaths t
    exact ⟨⟨hkeeps.remoteAddrs, hkeeps.isServer, hkeeps.assignments⟩, rfl, rfl⟩

/-! Opening a path asks for the slot's assigned endpoint. -/

/-- The path joins the slot to the endpoint it is assigned. -/
def Respected (opening : Opening) : Prop :=
  opening.slot.localRemoteIndex = some opening.remoteIndex

instance (opening : Opening) : Decidable (Respected opening) :=
  inferInstanceAs (Decidable (_ = _))

structure OpensAssigned (state state' : Paths × List Opening) : Prop where
  keeps : KeepsAssignments state.1 state'.1
  opened : ∃ new, state'.2 = state.2 ++ new ∧ ∀ opening ∈ new, Respected opening

namespace OpensAssigned

theorem refl (state : Paths × List Opening) : OpensAssigned state state :=
  ⟨.refl _, [], by simp, by simp⟩

theorem trans (hfirst : OpensAssigned state state')
    (hsecond : OpensAssigned state' state'') : OpensAssigned state state'' := by
  obtain ⟨new, hnew, hrespected⟩ := hfirst.opened
  obtain ⟨later, hlater, hlaterRespected⟩ := hsecond.opened
  refine ⟨hfirst.keeps.trans hsecond.keeps, new ++ later, ?_, ?_⟩
  · rw [hlater, hnew, List.append_assoc]
  · exact List.forall_mem_append.mpr ⟨hrespected, hlaterRespected⟩

theorem of_keeps (hkeeps : KeepsAssignments t t') (opened : List Opening) :
    OpensAssigned (t, opened) (t', opened) :=
  ⟨hkeeps, [], by simp, by simp⟩

end OpensAssigned

theorem opensAssigned_turn (now : Nat) (attempt : Nat → PathAttempt)
    (state : Paths × List Opening) (i : Nat) :
    OpensAssigned state (tryOpenPendingPath now attempt state i) := by
  have hclear : KeepsAssignments state.1 (state.1.clearPending i) :=
    keeps_modifySlot _ _ _ fun _ => rfl
  have hlater : KeepsAssignments state.1 (state.1.retryLater now i) :=
    keeps_modifySlot _ _ _ fun _ => rfl
  unfold tryOpenPendingPath
  extract_lets t slot
  split
  · exact .refl state
  cases hremote : slot.localRemoteIndex with
  | none => exact .of_keeps hclear _
  | some remoteIndex =>
      simp only
      split
      · exact .of_keeps hclear _
      cases (attempt i).result with
      | opened => exact ⟨hclear, [⟨slot, remoteIndex⟩], rfl, by simpa [Respected] using hremote⟩
      | ignored => exact .of_keeps hlater _
      | failed => exact .of_keeps hclear _

theorem opensAssigned_tryOpen (now : Nat) (attempt : Nat → PathAttempt)
    (state : Paths × List Opening) :
    OpensAssigned state (tryOpenPendingPaths now attempt state) := by
  unfold tryOpenPendingPaths
  split
  · exact .refl state
  · next hready =>
    clear hready
    generalize List.range state.1.numFds = turns
    induction turns generalizing state with
    | nil => exact .refl state
    | cons i turns ih => exact (opensAssigned_turn now attempt state i).trans (ih _)

/-! The interface monitor's messages. -/

theorem remoteAddrs_onIfmonMessage (t : Paths) (message : IfmonMessage)
    (opened : Option Int) :
    (t.onIfmonMessage message opened).remoteAddrs = t.remoteAddrs ∧
      (t.onIfmonMessage message opened).isServer = t.isServer := by
  unfold onIfmonMessage
  split
  · unfold addressAdded
    split
    · split
      · extract_lets extended
        split
        · exact ⟨rfl, rfl⟩
        · split <;> exact ⟨rfl, rfl⟩
      · exact ⟨rfl, rfl⟩
    · exact ⟨rfl, rfl⟩
  · unfold addressRemoved
    split <;> exact ⟨rfl, rfl⟩

theorem wellAssigned_addressRemoved {t : Paths}
    (hassigned : WellAssigned t.remoteAddrs t.assignments) (message : IfmonMessage) :
    WellAssigned t.remoteAddrs (t.addressRemoved message).assignments := by
  refine hassigned.sublist ?_
  rw [assignments, localSlots_addressRemoved]
  exact List.eraseP_sublist.map assignmentOf

theorem selectRemoteForAddedLocal_eq_some {t : Paths}
    (hselect : t.selectRemoteForAddedLocal localIndex = some remoteIndex) :
    t.pathEndpointFamiliesMatch localIndex remoteIndex = true ∧
      (1 < t.remoteAddrs.length → t.assigned localIndex remoteIndex = false) := by
  unfold selectRemoteForAddedLocal at hselect
  split at hselect
  · simp at hselect
  split at hselect
  · next hone =>
    split at hselect
    · next hmatch =>
      obtain rfl := Option.some.inj hselect
      exact ⟨hmatch, fun hmany => absurd hone (by omega)⟩
    · simp at hselect
  · have hfound := List.find?_some hselect
    simp only [Bool.not_eq_true', decide_eq_true_eq] at hfound
    exact ⟨hfound.1, fun _ => hfound.2⟩

theorem assigned_eq_false {t : Paths} (hfree : t.assigned localIndex remoteIndex = false)
    (hi : i < t.numFds) (hother : i ≠ localIndex) :
    (t.slots i).localRemoteIndex ≠ some remoteIndex := by
  simp only [assigned, List.any_eq_false, List.mem_range, decide_eq_true_eq, not_and] at hfree
  exact hfree i hi hother

section Append

variable {t : Paths} (hroom : t.numFds < transportMaxPaths) (message : IfmonMessage)
  (addr : SockAddr) (fd : Int)

theorem slots_appendSlot_of_lt (hi : i < t.numFds) :
    (t.appendSlot hroom message addr fd).slots i = t.slots i :=
  Function.update_of_ne (by omega) ..

theorem assignments_rollback :
    (t.appendSlot hroom message addr fd).rollbackSlot.assignments = t.assignments := by
  rw [assignments_eq, assignments_eq]
  refine live_congr fun i hi => ?_
  rw [rollbackSlot]
  exact congrArg assignmentOf
    ((Function.update_of_ne (Nat.ne_of_lt hi) ..).trans (slots_appendSlot_of_lt hroom message
      addr fd hi))

theorem assignments_assignRemote (remoteIndex : Nat) :
    ((t.appendSlot hroom message addr fd).assignRemote t.numFds remoteIndex).assignments =
      t.assignments ++ [(some (addr.withPort t.bindPort), some remoteIndex)] := by
  rw [assignments_eq, assignments_eq]
  have hlast : assignmentOf
      (((t.appendSlot hroom message addr fd).assignRemote t.numFds remoteIndex).slots t.numFds) =
      (some (addr.withPort t.bindPort), some remoteIndex) := by
    simp [assignRemote, modifySlot, appendSlot, assignmentOf]
  refine (live_succ t.numFds _).trans ?_
  rw [hlast]
  refine congrArg (· ++ _) (live_congr fun i hi => congrArg assignmentOf ?_)
  exact (Function.update_of_ne (Nat.ne_of_lt hi) ..).trans
    (slots_appendSlot_of_lt hroom message addr fd hi)

theorem wellAssigned_assignRemote (hassigned : WellAssigned t.remoteAddrs t.assignments)
    (hselect : (t.appendSlot hroom message addr fd).selectRemoteForAddedLocal t.numFds =
      some remoteIndex) :
    WellAssigned t.remoteAddrs
      ((t.appendSlot hroom message addr fd).assignRemote t.numFds remoteIndex).assignments := by
  obtain ⟨hmatch, hfree⟩ := selectRemoteForAddedLocal_eq_some hselect
  rw [assignments_assignRemote]
  refine hassigned.append ⟨_, _, rfl, ?_⟩ fun hmany hold => ?_
  · obtain ⟨found, hlocal, hfamily⟩ := (familiesMatch_iff (Nat.lt_succ_self _)).mp hmatch
    have hsame : found = addr.withPort t.bindPort := by
      simpa [appendSlot] using hlocal.symm
    exact hsame ▸ hfamily
  · obtain ⟨pair, hpair, hindex⟩ := List.mem_map.mp hold
    rw [assignments_eq] at hpair
    obtain ⟨i, hi, rfl⟩ := mem_live.mp hpair
    refine assigned_eq_false (hfree hmany) (Nat.lt_succ_of_lt hi) (Nat.ne_of_lt hi) ?_
    rw [slots_appendSlot_of_lt hroom message addr fd hi]
    exact hindex

end Append

theorem wellAssigned_addressAdded {t : Paths}
    (hassigned : WellAssigned t.remoteAddrs t.assignments) (hclient : t.isServer = false)
    (message : IfmonMessage) (opened : Option Int) :
    WellAssigned t.remoteAddrs (t.addressAdded message opened).assignments := by
  unfold addressAdded
  split
  · split
    · next addr fd _ hroom =>
      rw [if_neg (by simp [hclient])]
      cases hselect : (t.appendSlot hroom.2.1 message addr fd).selectRemoteForAddedLocal
          t.numFds with
      | none =>
          simp only [assignments_rollback]
          exact hassigned
      | some remoteIndex => exact wellAssigned_assignRemote _ _ _ _ hassigned hselect
    · exact hassigned
  · exact hassigned

/-! A client's runs. -/

structure Client (state : Paths × List Opening) : Prop where
  isClient : state.1.isServer = false
  assigned : WellAssigned state.1.remoteAddrs state.1.assignments

theorem Client.of_keeps (hclient : Client state) (hkeeps : KeepsAssignments state.1 state'.1) :
    Client state' where
  isClient := hkeeps.isServer.trans hclient.isClient
  assigned := by
    rw [hkeeps.remoteAddrs, hkeeps.assignments]
    exact hclient.assigned

theorem client_apply (hclient : Client state) (op : Op) : Client (apply state op) := by
  cases op with
  | ifmon message opened =>
      obtain ⟨hremotes, hserver⟩ := remoteAddrs_onIfmonMessage state.1 message opened
      refine ⟨hserver.trans hclient.isClient, ?_⟩
      simp only [apply]
      rw [hremotes]
      unfold onIfmonMessage
      split
      · exact wellAssigned_addressAdded hclient.assigned hclient.isClient message opened
      · exact wellAssigned_addressRemoved hclient.assigned message
  | start connected =>
      simp only [apply]
      cases hstart : state.1.startClientConnection connected with
      | none => exact hclient
      | some started => exact hclient.of_keeps (startClientConnection_eq_some hstart).1
  | ready => exact ⟨hclient.isClient, hclient.assigned⟩
  | tryOpen now attempt => exact hclient.of_keeps (opensAssigned_tryOpen now attempt state).keeps
  | freed => exact ⟨hclient.isClient, hclient.assigned⟩

theorem client_run (hclient : Client state) (ops : List Op) :
    Client (Machine.run apply state ops) :=
  Machine.invariant_run (fun _ op hclient _ => client_apply hclient op) hclient
    (Machine.along_true state ops)

/-! The connection's first path. -/

/-- Whether `start_client_connection` goes through. -/
def CanStart (t : Paths) (connected : Bool) : Prop :=
  t.isServer = false ∧ t.remoteAddrs ≠ [] ∧ t.numFds ≠ 0 ∧ t.conns = [] ∧ connected = true

/-- A connection is started only while the first slot is assigned the first
remote endpoint. -/
def StartsAtFirst (state : Paths × List Opening) : Op → Prop
  | .start connected =>
      CanStart state.1 connected → (state.1.slots 0).localRemoteIndex = some 0
  | _ => True

theorem startClientConnection_of_canStart {t : Paths} (hcan : CanStart t connected) :
    t.startClientConnection connected =
      some ({ t.deferPaths with conns := [{}] }, { slot := t.slots 0, remoteIndex := 0 }) := by
  obtain ⟨hclient, hremotes, hslots, hidle, hconnected⟩ := hcan
  simp [startClientConnection, hclient, hremotes, hslots, hidle, hconnected]

theorem startClientConnection_of_not_canStart {t : Paths} (hcan : ¬ CanStart t connected) :
    t.startClientConnection connected = none := by
  unfold startClientConnection
  rw [if_pos]
  by_contra hgo
  simp only [not_or, Bool.not_eq_true, not_not, List.length_eq_zero_iff,
    Bool.not_eq_false] at hgo
  exact hcan ⟨hgo.1, hgo.2.1, hgo.2.2.1, hgo.2.2.2.1, hgo.2.2.2.2⟩

theorem respected_apply_iff (state : Paths × List Opening) (op : Op) :
    (∀ opening ∈ (apply state op).2, Respected opening) ↔
      (∀ opening ∈ state.2, Respected opening) ∧ StartsAtFirst state op := by
  cases op with
  | ifmon message opened => simp [apply, StartsAtFirst]
  | start connected =>
      by_cases hcan : CanStart state.1 connected
      · simp only [apply, startClientConnection_of_canStart hcan, StartsAtFirst, hcan,
          true_imp_iff, List.forall_mem_append, List.forall_mem_singleton, Respected]
      · simp [apply, startClientConnection_of_not_canStart hcan, StartsAtFirst, hcan]
  | ready => simp [apply, StartsAtFirst]
  | tryOpen now attempt =>
      obtain ⟨new, hnew, hrespected⟩ := (opensAssigned_tryOpen now attempt state).opened
      simp only [apply, StartsAtFirst, and_true]
      rw [hnew, List.forall_mem_append]
      exact and_iff_left hrespected
  | freed => simp [apply, StartsAtFirst]

theorem respected_run_iff (state : Paths × List Opening) (ops : List Op) :
    (∀ opening ∈ (Machine.run apply state ops).2, Respected opening) ↔
      (∀ opening ∈ state.2, Respected opening) ∧
        Machine.Along apply StartsAtFirst state ops := by
  induction ops generalizing state with
  | nil => simp [Machine.Along]
  | cons op rest ih =>
      rw [Machine.run_cons, ih, respected_apply_iff, Machine.Along, and_assoc]

/-! What creation assigns. -/

theorem configuredRemote_zero (t : Paths) : t.configuredRemote 0 = 0 := by
  simp [configuredRemote]

theorem configuredRemote_of_many {t : Paths} (hmany : 1 < t.remoteAddrs.length) (i : Nat) :
    t.configuredRemote i = i :=
  if_neg (by omega)

theorem assignConfigured_eq_some {t : Paths} (hassign : t.assignConfigured = some t') :
    WellAssigned t.remoteAddrs t'.assignments ∧ t'.remoteAddrs = t.remoteAddrs ∧
      t'.isServer = t.isServer ∧ t'.numFds = t.numFds ∧
      ∀ i < t.numFds, (t'.slots i).localRemoteIndex = some (t.configuredRemote i) := by
  unfold assignConfigured at hassign
  split at hassign
  · next hfamilies =>
    have hsame := Option.some.inj hassign
    have hslots : ∀ i < t.numFds, t'.slots i =
        { t.slots i with localRemoteIndex := some (t.configuredRemote i) } := by
      intro i hi
      rw [← hsame]
      exact if_pos hi
    have hcount : t'.numFds = t.numFds := hsame ▸ rfl
    have hindices : ∀ i < t.numFds,
        (t'.slots i).localRemoteIndex = some (t.configuredRemote i) := by
      intro i hi
      rw [hslots i hi]
    refine ⟨⟨?_, ?_⟩, hsame ▸ rfl, hsame ▸ rfl, hcount, hindices⟩
    · intro pair hpair
      rw [assignments_eq, hcount] at hpair
      obtain ⟨i, hi, rfl⟩ := mem_live.mp hpair
      obtain ⟨addr, haddr, hfamily⟩ := (familiesMatch_iff hi).mp (hfamilies i hi)
      refine ⟨addr, t.configuredRemote i, ?_, hfamily⟩
      rw [hslots i hi, assignmentOf, haddr]
    · intro hmany
      have hindexed : t'.assignments.map Prod.snd = (List.range t.numFds).map some := by
        rw [assignments_eq, hcount, map_live]
        exact live_congr fun i hi => (hindices i hi).trans
          (congrArg some (configuredRemote_of_many hmany i))
      rw [hindexed]
      exact List.nodup_range.map (Option.some_injective _)
  · simp at hassign

theorem client_create {config : PathConfig} (hclient : config.isServer = false)
    (hcreate : create config env = some state) :
    Client state ∧ ∀ opening ∈ state.2, Respected opening := by
  unfold create at hcreate
  split at hcreate
  · next hvalid =>
    rw [if_neg (by simp [PathConfig.bindPaths, hclient])] at hcreate
    split at hcreate
    · simp at hcreate
    split at hcreate
    · simp at hcreate
    next t hassign =>
    split at hcreate
    · simp at hcreate
    next t' opening hstart =>
    obtain rfl := Option.some.inj hcreate
    obtain ⟨hassigned, hremotes, hserver, hcount, hindices⟩ := assignConfigured_eq_some hassign
    obtain ⟨hkeeps, -, hopening⟩ := startClientConnection_eq_some hstart
    have hzero : (t.slots 0).localRemoteIndex = some 0 := by
      rw [hindices 0 (Nat.pos_of_ne_zero hvalid.2.1), configuredRemote_zero]
    have hstarted : Client (t, [opening]) :=
      { isClient := hserver.trans hclient
        assigned := by
          rw [hremotes]
          exact hassigned }
    refine ⟨hstarted.of_keeps hkeeps, fun other hother => ?_⟩
    obtain rfl := List.mem_singleton.mp hother
    rw [hopening]
    exact hzero
  · simp at hcreate

/-- Every bound slot has an endpoint of its own family; with several remotes
no two share one; and every path opened joined a slot to its own endpoint. -/
structure EndpointsRespected (state : Paths × List Opening) : Prop where
  assigned : ∀ i < state.1.numFds, ∃ remoteIndex,
    (state.1.slots i).localRemoteIndex = some remoteIndex ∧
      state.1.pathEndpointFamiliesMatch i remoteIndex = true
  distinct : 1 < state.1.remoteAddrs.length → ∀ i < state.1.numFds, ∀ j < state.1.numFds,
    (state.1.slots i).localRemoteIndex = (state.1.slots j).localRemoteIndex → i = j
  openings : ∀ opening ∈ state.2, Respected opening

theorem Client.endpoints_iff (hclient : Client state) :
    EndpointsRespected state ↔ ∀ opening ∈ state.2, Respected opening := by
  constructor
  · exact fun hrespected => hrespected.openings
  · intro hopenings
    refine ⟨fun i hi => ?_, fun hmany => ?_, hopenings⟩
    · have hmem : assignmentOf (state.1.slots i) ∈ state.1.assignments := by
        rw [assignments_eq]
        exact mem_live.mpr ⟨i, hi, rfl⟩
      obtain ⟨addr, remoteIndex, hpair, hfamily⟩ := hclient.assigned.paired _ hmem
      obtain ⟨haddr, hindex⟩ := Prod.mk.inj hpair
      exact ⟨remoteIndex, hindex, (familiesMatch_iff hi).mpr ⟨addr, haddr, hfamily⟩⟩
    · have hnodup := hclient.assigned.distinct hmany
      rw [assignments_eq, map_live] at hnodup
      intro i hi j hj hsame
      exact (List.nodup_map_iff_inj_on List.nodup_range).mp hnodup i (List.mem_range.mpr hi) j
        (List.mem_range.mpr hj) hsame

/-- The assignment survives every order of additions, removals, reconnects and
openings.  What can go against it is a connection's first path alone. -/
theorem endpoints_respected_iff {config : PathConfig} (hclient : config.isServer = false)
    (hcreate : create config env = some start) (ops : List Op) :
    EndpointsRespected (Machine.run apply start ops) ↔
      Machine.Along apply StartsAtFirst start ops := by
  obtain ⟨hstart, hrespected⟩ := client_create hclient hcreate
  rw [(client_run hstart ops).endpoints_iff, respected_run_iff]
  exact and_iff_right hrespected

/-! A client with a path of each family loses the first and reconnects. -/

def twoHomed : PathConfig where
  bindAddrs := [.inet 0x0A000001 0, .inet6 0xFD000000000000000000000000000001 0]
  remoteAddrs := [.inet 0x0A000009 0, .inet6 0xFD000000000000000000000000000009 0]
  port := 4433

def twoHomedStart : Paths × List Opening := (create twoHomed en0).get rfl

def firstPathLost : List Op :=
  [.ifmon { index := 1, name := [], addr := some (.inet 0x0A000001 0), isAdded := false } none,
    .freed, .start true]

theorem endpoints_respected_bothOpen :
    EndpointsRespected (Machine.run apply twoHomedStart
        [.ready, .tryOpen 0 fun _ => ⟨false, .opened⟩]) ↔
      Machine.Along apply StartsAtFirst twoHomedStart
        [.ready, .tryOpen 0 fun _ => ⟨false, .opened⟩] :=
  have hcreate : create twoHomed en0 = some twoHomedStart := (Option.some_get _).symm
  endpoints_respected_iff rfl hcreate _

theorem reconnect_crosses_families :
    ¬ EndpointsRespected (Machine.run apply twoHomedStart firstPathLost) := by
  intro hrespected
  exact absurd hrespected.openings (by decide +kernel)

end Paths

end Qlinq
