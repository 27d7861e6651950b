import Mathlib.Algebra.GroupWithZero.Nat
import Qlinq.PathAssignment

namespace Qlinq

open Compaction
open IfmonUpdate (addrMessage diffOf generateUpdate ifaceMessages interfaceRemoval
  modified_generateUpdate)

/-! What one update of the interface monitor leaves bound. -/

def SockAddr.ip : SockAddr → IpAddr
  | inet host _ => .v4 host
  | inet6 host _ => .v6 host

@[simp] theorem IpAddr.ip_sockAddr (ip : IpAddr) : ip.sockAddr.ip = ip := by
  cases ip <;> rfl

theorem SockAddr.sameHost_eq (a b : SockAddr) : a.sameHost b = decide (a.ip = b.ip) := by
  cases a <;> cases b <;> simp [sameHost, ip]

def PathSlot.boundTo (slot : PathSlot) (ip : IpAddr) : Bool :=
  slot.localAddr.any fun addr => addr.ip = ip

namespace Paths

def boundCount (t : Paths) (ip : IpAddr) : Nat :=
  t.localSlots.countP fun slot => slot.boundTo ip

/-- Some open socket is bound to the address. -/
def Bound (t : Paths) (ip : IpAddr) : Prop := ∃ slot ∈ t.localSlots, slot.boundTo ip

theorem bound_iff {t : Paths} : t.Bound ip ↔ 0 < t.boundCount ip :=
  List.countP_pos_iff.symm

/-! One message. -/

theorem addressAdded_none (t : Paths) (message : IfmonMessage) :
    t.addressAdded message none = t := by
  unfold addressAdded
  split
  · next hopened => simp at hopened
  · rfl

theorem localSlots_appended {t t' : Paths} (hcount : t'.numFds = t.numFds + 1)
    (hkept : ∀ i < t.numFds, t'.slots i = t.slots i) :
    t'.localSlots = t.localSlots ++ [t'.slots t.numFds] := by
  rw [localSlots, hcount, live_succ]
  exact congrArg (· ++ _) (live_congr hkept)

/-- An added address takes a new last slot, or nothing happens. -/
theorem localSlots_addressAdded (t : Paths) (message : IfmonMessage) (opened : Option Int) :
    (t.addressAdded message opened).localSlots = t.localSlots ∨
      ∃ slot, (t.addressAdded message opened).localSlots = t.localSlots ++ [slot] ∧
        slot.localIfindex = message.index := by
  unfold addressAdded
  split
  · split
    · next addr fd _ hroom =>
      extract_lets extended
      have hkept : ∀ i < t.numFds, extended.slots i = t.slots i := fun i hi =>
        slots_appendSlot_of_lt hroom.2.1 message addr fd hi
      split
      · refine .inr ⟨_, localSlots_appended rfl hkept, ?_⟩
        simp [extended, appendSlot]
      · split
        · refine .inl (live_congr fun i hi => ?_)
          exact (Function.update_of_ne (Nat.ne_of_lt hi) ..).trans (hkept i hi)
        · refine .inr ⟨_, localSlots_appended rfl fun i hi => ?_, ?_⟩
          · exact (Function.update_of_ne (Nat.ne_of_lt hi) ..).trans (hkept i hi)
          · simp [extended, assignRemote, modifySlot, appendSlot]
    · exact .inl rfl
  · exact .inl rfl

theorem removalMatches_addr {message : IfmonMessage} (haddr : message.addr = some addr) :
    removalMatches message = fun slot => slot.boundTo addr.ip := by
  funext slot
  rw [removalMatches, haddr]
  refine congrArg (Option.any · slot.localAddr) (funext fun other => ?_)
  rw [SockAddr.sameHost_eq]
  simp only [eq_comm]

def closes (ip : IpAddr) (message : IfmonMessage) : Bool :=
  !message.isAdded && message.addr.any fun addr => addr.ip = ip

theorem apart_of_ne {a b : IpAddr} (hne : a ≠ b) (slot : PathSlot)
    (ha : slot.boundTo a = true) : slot.boundTo b = false := by
  cases hlocal : slot.localAddr with
  | none => simp [PathSlot.boundTo, hlocal]
  | some addr =>
      simp only [PathSlot.boundTo, hlocal, Option.any_some, decide_eq_true_eq,
        decide_eq_false_iff_not] at ha ⊢
      exact fun hb => hne (ha.symm.trans hb)

theorem boundCount_addressRemoved {t : Paths} {message : IfmonMessage}
    (hremoved : message.isAdded = false) (haddr : message.addr.isSome) (ip : IpAddr) :
    (t.addressRemoved message).boundCount ip =
      t.boundCount ip - if closes ip message then 1 else 0 := by
  obtain ⟨addr, haddr⟩ := Option.isSome_iff_exists.mp haddr
  have hcloses : closes ip message = decide (addr.ip = ip) := by simp [closes, hremoved, haddr]
  rw [boundCount, localSlots_addressRemoved, removalMatches_addr haddr, hcloses]
  by_cases hsame : addr.ip = ip
  · subst hsame
    rw [countP_eraseP, decide_eq_true rfl, if_pos rfl]
    rfl
  · rw [countP_eraseP_of_apart (apart_of_ne hsame), decide_eq_false hsame]
    rfl

/-! All the messages of an update, each with the answer its socket got. -/

def answer (t : Paths) (message : IfmonMessage × Option Int) : Paths :=
  t.onIfmonMessage message.1 message.2

def process (t : Paths) (answered : List (IfmonMessage × Option Int)) : Paths :=
  Machine.run answer t answered

theorem answer_added {t : Paths} {message : IfmonMessage × Option Int}
    (hadded : message.1.isAdded = true) :
    t.answer message = t.addressAdded message.1 message.2 := by
  rw [answer, onIfmonMessage, if_pos hadded]

theorem answer_removed {t : Paths} {message : IfmonMessage × Option Int}
    (hremoved : message.1.isAdded = false) :
    t.answer message = t.addressRemoved message.1 := by
  rw [answer, onIfmonMessage, hremoved]
  rfl

theorem boundCount_le_answer {t : Paths} {message : IfmonMessage × Option Int}
    (haddr : message.1.addr.isSome) (ip : IpAddr) :
    t.boundCount ip - (if closes ip message.1 then 1 else 0) ≤
      (t.answer message).boundCount ip := by
  cases hadded : message.1.isAdded with
  | true =>
      rw [answer_added hadded, boundCount, boundCount]
      rcases localSlots_addressAdded t message.1 message.2 with hsame | ⟨slot, hnew, -⟩
      · rw [hsame]
        omega
      · rw [hnew, List.countP_append]
        omega
  | false => rw [answer_removed hadded, boundCount_addressRemoved hadded haddr]

theorem boundCount_answer_none {t : Paths} {message : IfmonMessage}
    (haddr : message.addr.isSome) (ip : IpAddr) :
    (t.answer (message, none)).boundCount ip =
      t.boundCount ip - if closes ip message then 1 else 0 := by
  cases hadded : message.isAdded with
  | true =>
      have hopen : closes ip message = false := by simp [closes, hadded]
      rw [answer_added hadded, addressAdded_none, hopen]
      rfl
  | false => rw [answer_removed hadded, boundCount_addressRemoved hadded haddr]

theorem boundCount_le_process {t : Paths} {answered : List (IfmonMessage × Option Int)}
    (haddr : ∀ message ∈ answered, message.1.addr.isSome) (ip : IpAddr) :
    t.boundCount ip - (answered.map Prod.fst).countP (closes ip) ≤
      (t.process answered).boundCount ip := by
  induction answered generalizing t with
  | nil => simp [process]
  | cons message rest ih =>
      obtain ⟨hhere, hrest⟩ := List.forall_mem_cons.mp haddr
      have hstep := boundCount_le_answer (t := t) hhere ip
      have hlater := ih (t := t.answer message) hrest
      rw [List.map_cons, List.countP_cons]
      simp only [process, Machine.run_cons] at hlater ⊢
      omega

theorem boundCount_process_none {t : Paths} {messages : List IfmonMessage}
    (haddr : ∀ message ∈ messages, message.addr.isSome) (ip : IpAddr) :
    (t.process (messages.map fun message => (message, none))).boundCount ip =
      t.boundCount ip - messages.countP (closes ip) := by
  induction messages generalizing t with
  | nil => simp [process]
  | cons message rest ih =>
      obtain ⟨hhere, hrest⟩ := List.forall_mem_cons.mp haddr
      have hstep := boundCount_answer_none (t := t) hhere ip
      have hlater := ih (t := t.answer (message, none)) hrest
      rw [List.map_cons, List.countP_cons]
      simp only [process, Machine.run_cons] at hlater ⊢
      rw [hlater, hstep]
      omega

theorem process_append (t : Paths) (first second : List (IfmonMessage × Option Int)) :
    t.process (first ++ second) = (t.process first).process second :=
  Machine.run_append t first second

/-- Added addresses of the interfaces in `indices` come after the slots there. -/
theorem localSlots_process_added {t : Paths} {answered : List (IfmonMessage × Option Int)}
    {indices : List UInt32}
    (hadded : ∀ message ∈ answered, message.1.isAdded = true ∧ message.1.index ∈ indices) :
    ∃ later, (t.process answered).localSlots = t.localSlots ++ later ∧
      ∀ slot ∈ later, slot.localIfindex ∈ indices := by
  induction answered generalizing t with
  | nil => exact ⟨[], by simp [process], by simp⟩
  | cons message rest ih =>
      obtain ⟨⟨hisAdded, hindex⟩, hrest⟩ := List.forall_mem_cons.mp hadded
      obtain ⟨later, hlater, hindices⟩ := ih (t := t.answer message) hrest
      have hanswer := answer_added (t := t) hisAdded
      rw [hanswer] at hlater
      refine (localSlots_addressAdded t message.1 message.2).elim (fun hsame => ?_) ?_
      · refine ⟨later, ?_, hindices⟩
        rw [process, Machine.run_cons, hanswer, ← hsame]
        exact hlater
      · rintro ⟨slot, hnew, hslot⟩
        refine ⟨slot :: later, ?_, ?_⟩
        · rw [process, Machine.run_cons, hanswer, List.append_cons, ← hnew]
          exact hlater
        · exact List.forall_mem_cons.mpr ⟨hslot ▸ hindex, hindices⟩

theorem process_none_of_added {messages : List IfmonMessage}
    (hadded : ∀ message ∈ messages, message.isAdded = true) (t : Paths) :
    t.process (messages.map fun message => (message, none)) = t := by
  induction messages with
  | nil => rfl
  | cons message rest ih =>
      obtain ⟨hhere, hrest⟩ := List.forall_mem_cons.mp hadded
      have hanswer : t.answer (message, none) = t := by
        rw [answer_added hhere, addressAdded_none]
      rw [List.map_cons, process, Machine.run_cons, hanswer]
      exact ih hrest

theorem localSlots_interfaceRemoval (t : Paths) (k : UInt32) :
    (t.addressRemoved (interfaceRemoval k)).localSlots =
      t.localSlots.eraseP fun slot => slot.localIfindex = k := by
  rw [localSlots_addressRemoved]
  exact eraseP_congr fun slot hslot => removalMatches_interfaceRemoval (bound_of_mem hslot) k

theorem localSlots_process_removed {t : Paths} {answered : List (IfmonMessage × Option Int)}
    {keys : List UInt32} (hremoved : answered.map Prod.fst = keys.map interfaceRemoval) :
    (t.process answered).localSlots =
      keys.foldl (fun slots k => slots.eraseP fun slot => slot.localIfindex = k)
        t.localSlots := by
  induction keys generalizing t answered with
  | nil =>
      obtain rfl := List.map_eq_nil_iff.mp hremoved
      rfl
  | cons k keys ih =>
      obtain ⟨message, rest, rfl, hhere, hrest⟩ := List.map_eq_cons_iff.mp hremoved
      have hanswer : t.answer message = t.addressRemoved (interfaceRemoval k) := by
        rw [answer, hhere]
        rfl
      rw [List.foldl_cons, ← localSlots_interfaceRemoval, ← hanswer]
      exact ih hrest

end Paths

/-! What an update closes, read off the two snapshots. -/

namespace IfmonList

/-- Interfaces of index `k` that are gone. -/
def vanished (prev curr : IfmonList) (k : UInt32) : Nat :=
  prev.ifaces.countP fun iface => iface.index = k ∧ (curr.find iface.index).isNone

def holders (addrs : List IfmonAddr) (ip : IpAddr) : Nat :=
  addrs.countP fun addr => addr.ip = ip

/-- Removals of `ip` for an interface of the current snapshot: one for each
time the interface has it when it goes down, and one for each prefix length it
no longer has it with. -/
def closuresOf (prev curr : IfmonList) (ip : IpAddr) (iface : IfmonIface) : Nat :=
  match prev.find iface.index with
  | none => 0
  | some old =>
      (if old.isUp = true ∧ iface.isUp = false then
          (curr.find iface.index).elim 0 fun first => holders first.addrs ip
        else
          0) +
        old.addrs.countP fun addr => addr.ip = ip ∧ addr ∉ iface.addrs

def closures (prev curr : IfmonList) (ip : IpAddr) : Nat :=
  (curr.ifaces.map (closuresOf prev curr ip)).sum

/-- The address is in both snapshots, on an interface that is up in both. -/
def StaysUp (prev curr : IfmonList) (ip : IpAddr) : Prop :=
  ∃ old ∈ prev.ifaces, ∃ iface ∈ curr.ifaces, old.index = iface.index ∧
    old.isUp = true ∧ iface.isUp = true ∧
    (∃ addr ∈ old.addrs, addr.ip = ip) ∧ ∃ addr ∈ iface.addrs, addr.ip = ip

end IfmonList

namespace Paths

open IfmonList (closures closuresOf holders vanished)

theorem countP_addrMessages_added (index : UInt32) (name : List UInt8)
    (addrs : List IfmonAddr) (ip : IpAddr) :
    (addrs.map (addrMessage index name true)).countP (closes ip) = 0 := by
  rw [List.countP_map, List.countP_eq_zero]
  exact fun addr _ => by simp [closes, addrMessage]

theorem countP_addrMessages_removed (index : UInt32) (name : List UInt8)
    (addrs : List IfmonAddr) (ip : IpAddr) :
    (addrs.map (addrMessage index name false)).countP (closes ip) = holders addrs ip := by
  rw [List.countP_map]
  exact List.countP_congr fun addr _ => by simp [closes, addrMessage]

theorem countP_ifaceMessages (iface : IfmonIface) (isUp : Bool) (ip : IpAddr) :
    (ifaceMessages iface isUp).countP (closes ip) = if isUp then 0 else holders iface.addrs ip := by
  cases isUp with
  | true => exact countP_addrMessages_added ..
  | false => exact countP_addrMessages_removed ..

theorem countP_addrsRemoved (old iface : IfmonIface) (ip : IpAddr) :
    holders (IfmonIfaceDiff.ofPair old iface).addrsRemoved ip =
      old.addrs.countP fun addr => addr.ip = ip ∧ addr ∉ iface.addrs := by
  rw [holders, IfmonIfaceDiff.addrsRemoved_ofPair, ListDifference.beyond, List.countP_filter]
  exact List.countP_congr fun addr _ => by simp

theorem countP_modifiedMessages {update : IfmonUpdate} (old iface : IfmonIface)
    (ip : IpAddr) :
    (update.modifiedMessages (.ofPair old iface)).countP (closes ip) =
      (if old.isUp = true ∧ iface.isUp = false then
          (update.interfaces.find iface.index).elim 0 fun first => holders first.addrs ip
        else
          0) +
        old.addrs.countP fun addr => addr.ip = ip ∧ addr ∉ iface.addrs := by
  unfold IfmonUpdate.modifiedMessages
  rw [List.countP_append, List.countP_append, countP_addrMessages_added,
    countP_addrMessages_removed, countP_addrsRemoved, Nat.add_zero]
  refine congrArg (· + _) ?_
  simp only [IfmonIfaceDiff.ofPair]
  cases update.interfaces.find iface.index with
  | none => simp
  | some first =>
      rcases Bool.eq_false_or_eq_true old.isUp with hold | hold <;>
        rcases Bool.eq_false_or_eq_true iface.isUp with hiface | hiface <;>
          simp [hold, hiface, countP_ifaceMessages]

/-- Nothing is sent for an interface that did not change, and nothing would
have been closed. -/
theorem closuresOf_diffOf {update : IfmonUpdate} (hcurr : update.interfaces = curr)
    (prev : IfmonList) (iface : IfmonIface) (ip : IpAddr) :
    ((diffOf prev iface).elim 0 fun diff =>
        (update.modifiedMessages diff).countP (closes ip)) =
      closuresOf prev curr ip iface := by
  unfold diffOf closuresOf
  cases prev.find iface.index with
  | none => rfl
  | some old =>
      simp only
      rw [← hcurr, ← countP_modifiedMessages]
      split
      · rfl
      · next hunchanged =>
        simp only [IfmonIfaceDiff.changed, Bool.or_eq_true, not_or, Bool.not_eq_true,
          Bool.not_eq_false', List.isEmpty_iff] at hunchanged
        obtain ⟨⟨⟨-, hlink⟩, hadded⟩, hremoved⟩ := hunchanged
        simp [IfmonUpdate.modifiedMessages, hlink, hadded, hremoved]

theorem countP_modified {update : IfmonUpdate} (hcurr : update.interfaces = curr)
    (prev : IfmonList) (ip : IpAddr) (ifaces : List IfmonIface) :
    ((ifaces.filterMap (diffOf prev)).flatMap update.modifiedMessages).countP (closes ip) =
      (ifaces.map (closuresOf prev curr ip)).sum := by
  induction ifaces with
  | nil => rfl
  | cons iface rest ih =>
      rw [List.map_cons, List.sum_cons, ← ih, ← closuresOf_diffOf hcurr]
      cases hdiff : diffOf prev iface with
      | none => simp [hdiff]
      | some diff => simp [hdiff, List.countP_append]

theorem count_removed (prev curr : IfmonList) (k : UInt32) :
    (generateUpdate prev curr false).removed.count k = vanished prev curr k := by
  have hindices : prev.indices = prev.ifaces.map IfmonIface.index := rfl
  rw [IfmonUpdate.removed_generateUpdate, ListDifference.beyond, List.count_eq_countP,
    List.countP_filter, hindices, List.countP_map, vanished]
  apply List.countP_congr
  intro iface _
  simp [← IfmonList.isNone_find_iff]

theorem isSome_of_mem_modifiedMessages {update : IfmonUpdate}
    (hmessage : message ∈ update.modifiedMessages diff) : message.addr.isSome := by
  have hmap : ∀ {index name isAdded} {addrs : List IfmonAddr},
      message ∈ addrs.map (addrMessage index name isAdded) → message.addr.isSome := by
    intro index name isAdded addrs hmem
    obtain ⟨addr, -, rfl⟩ := List.mem_map.mp hmem
    rfl
  simp only [IfmonUpdate.modifiedMessages, List.mem_append] at hmessage
  rcases hmessage with (hlink | hgained) | hlost
  · split at hlink
    · split at hlink
      · simp at hlink
      · exact hmap hlink
    · simp at hlink
  · exact hmap hgained
  · exact hmap hlost

theorem mem_addedMessages {prev curr : IfmonList} (hmessage : message ∈
    (generateUpdate prev curr false).added.flatMap
      (generateUpdate prev curr false).addedMessages) :
    message.isAdded = true ∧ message.index ∈ curr.ifaces.map IfmonIface.index := by
  obtain ⟨index, -, hmem⟩ := List.mem_flatMap.mp hmessage
  unfold IfmonUpdate.addedMessages at hmem
  split at hmem
  · simp at hmem
  · next iface hfind =>
    obtain ⟨addr, -, rfl⟩ := List.mem_map.mp hmem
    exact ⟨rfl, List.mem_map_of_mem (List.mem_of_find?_eq_some hfind)⟩

theorem vanished_eq_zero {prev curr : IfmonList} (hk : k ∈ curr.ifaces.map IfmonIface.index) :
    k ∉ (generateUpdate prev curr false).removed := by
  rw [IfmonUpdate.removed_generateUpdate, ListDifference.mem_beyond]
  exact fun hremoved => hremoved.2 hk

/-- The slots left once the first slot of each vanished interface is closed. -/
def survivors (t : Paths) (prev curr : IfmonList) : List PathSlot :=
  dropEach PathSlot.localIfindex (vanished prev curr) t.localSlots

theorem foldl_removed (prev curr : IfmonList) (slots : List PathSlot) :
    (generateUpdate prev curr false).removed.foldl
        (fun slots k => slots.eraseP fun slot => slot.localIfindex = k) slots =
      dropEach PathSlot.localIfindex (vanished prev curr) slots := by
  rw [foldl_eraseP]
  exact congrArg (dropEach _ · slots) (funext fun k => count_removed prev curr k)

theorem isSome_modified {prev curr : IfmonList} (hmessage : message ∈
    (generateUpdate prev curr false).modified.flatMap
      (generateUpdate prev curr false).modifiedMessages) : message.addr.isSome := by
  obtain ⟨diff, -, hmem⟩ := List.mem_flatMap.mp hmessage
  exact isSome_of_mem_modifiedMessages hmem

theorem countP_modifiedPart (prev curr : IfmonList) (ip : IpAddr) :
    ((generateUpdate prev curr false).modified.flatMap
      (generateUpdate prev curr false).modifiedMessages).countP (closes ip) =
      closures prev curr ip := by
  rw [modified_generateUpdate]
  exact countP_modified rfl prev ip curr.ifaces

/-- Whatever the sockets of added addresses do, the update closes no more than
its removals. -/
theorem survivors_le_process {t : Paths} {prev curr : IfmonList}
    {answered : List (IfmonMessage × Option Int)}
    (hanswered : answered.map Prod.fst =
      (generateUpdate prev curr false).onIfmonUpdate) (ip : IpAddr) :
    (t.survivors prev curr).countP (fun slot => slot.boundTo ip) - closures prev curr ip ≤
      (t.process answered).boundCount ip := by
  obtain ⟨early, modified, rfl, hearly, hmodified⟩ := List.map_eq_append_iff.mp hanswered
  obtain ⟨added, removed, rfl, hadded, hremoved⟩ := List.map_eq_append_iff.mp hearly
  have hnew : ∀ message ∈ added, message.1.isAdded = true ∧
      message.1.index ∈ curr.ifaces.map IfmonIface.index := by
    intro message hmem
    have hmember : message.1 ∈ (generateUpdate prev curr false).added.flatMap
        (generateUpdate prev curr false).addedMessages :=
      hadded ▸ List.mem_map_of_mem hmem
    exact mem_addedMessages hmember
  obtain ⟨later, hlater, hindices⟩ := localSlots_process_added (t := t) hnew
  have hkept : ((t.process added).process removed).localSlots = t.survivors prev curr ++ later := by
    rw [localSlots_process_removed hremoved, hlater, foldl_eraseP_append, foldl_removed]
    · rfl
    · exact fun slot hslot => vanished_eq_zero (hindices slot hslot)
  have hsome : ∀ message ∈ modified, message.1.addr.isSome := fun message hmem =>
    isSome_modified (hmodified ▸ List.mem_map_of_mem hmem)
  have hlast := boundCount_le_process (t := (t.process added).process removed) hsome ip
  rw [hmodified, countP_modifiedPart, boundCount, hkept, List.countP_append] at hlast
  rw [process_append, process_append]
  omega

/-- When no socket can be opened, the update closes just that much. -/
theorem boundCount_process_unopened (t : Paths) (prev curr : IfmonList) (ip : IpAddr) :
    (t.process ((generateUpdate prev curr false).onIfmonUpdate.map
        fun message => (message, none))).boundCount ip =
      (t.survivors prev curr).countP (fun slot => slot.boundTo ip) - closures prev curr ip := by
  have hupdate : (generateUpdate prev curr false).onIfmonUpdate =
      (generateUpdate prev curr false).added.flatMap
          (generateUpdate prev curr false).addedMessages ++
        (generateUpdate prev curr false).removed.map interfaceRemoval ++
        (generateUpdate prev curr false).modified.flatMap
          (generateUpdate prev curr false).modifiedMessages := rfl
  have hremoved : (t.process (((generateUpdate prev curr false).removed.map
      interfaceRemoval).map fun message => (message, none))).localSlots =
        t.survivors prev curr := by
    have hfirst : (((generateUpdate prev curr false).removed.map interfaceRemoval).map
        fun message => (message, (none : Option Int))).map Prod.fst =
          (generateUpdate prev curr false).removed.map interfaceRemoval := by
      simp [Function.comp_def]
    rw [localSlots_process_removed hfirst, foldl_removed]
    rfl
  rw [hupdate, List.map_append, List.map_append, process_append, process_append,
    process_none_of_added fun message hmem => (mem_addedMessages hmem).1,
    boundCount_process_none fun message hmem => isSome_modified hmem, countP_modifiedPart,
    boundCount, hremoved]

/-- However the system answers, every address that stays on an interface that
stays up is still bound. -/
def KeepsLive (t : Paths) (prev curr : IfmonList) : Prop :=
  ∀ answered : List (IfmonMessage × Option Int),
    answered.map Prod.fst = (generateUpdate prev curr false).onIfmonUpdate →
      ∀ ip, IfmonList.StaysUp prev curr ip → t.Bound ip → (t.process answered).Bound ip

theorem keepsLive_iff (t : Paths) (prev curr : IfmonList) :
    t.KeepsLive prev curr ↔
      ∀ ip, IfmonList.StaysUp prev curr ip → t.Bound ip →
        closures prev curr ip <
          (t.survivors prev curr).countP fun slot => slot.boundTo ip := by
  constructor
  · intro hkeeps ip hstays hbound
    have hleft := bound_iff.mp (hkeeps
      ((generateUpdate prev curr false).onIfmonUpdate.map fun message => (message, none))
      (by simp [Function.comp_def]) ip hstays hbound)
    rw [boundCount_process_unopened] at hleft
    omega
  · intro hfewer answered hanswered ip hstays hbound
    have hleft := survivors_le_process (t := t) hanswered ip
    have := hfewer ip hstays hbound
    exact bound_iff.mpr (by omega)

/-! The prefix length of a bound address changes. -/

/-- Every bound slot is an address of the snapshot, on its interface. -/
def Matches (t : Paths) (prev : IfmonList) : Prop :=
  ∀ slot ∈ t.localSlots, ∃ iface ∈ prev.ifaces, iface.index = slot.localIfindex ∧
    ∃ addr ∈ iface.addrs, slot.boundTo addr.ip

def en0Iface (prefixLen : UInt8) : IfmonIface where
  index := 1
  name := [0x65, 0x6E, 0x30]
  hwAddr := []
  isUp := true
  addrs := [{ ip := .v4 0x0A000001, prefixLen := prefixLen }]
  capped := by simp [ifmonMaxIpsPerIface]

def en0Snapshot (prefixLen : UInt8) : IfmonList where
  ifaces := [en0Iface prefixLen]
  capped := by simp [ifmonMaxInterfaces]

theorem prefix_change_closes :
    (en0Server.bindPaths en0 (by decide)).Matches (en0Snapshot 24) ∧
      ¬ (en0Server.bindPaths en0 (by decide)).KeepsLive (en0Snapshot 24) (en0Snapshot 16) := by
  refine ⟨by unfold Matches; decide +kernel, fun hkeeps => ?_⟩
  have hstays : IfmonList.StaysUp (en0Snapshot 24) (en0Snapshot 16) (.v4 0x0A000001) := by
    unfold IfmonList.StaysUp
    decide +kernel
  have hleft := hkeeps
    ((generateUpdate (en0Snapshot 24) (en0Snapshot 16) false).onIfmonUpdate.map
      fun message => (message, none)) (by decide +kernel) _ hstays
      (by unfold Bound; decide +kernel)
  revert hleft
  unfold Bound
  decide +kernel

end Paths

end Qlinq
