import Qlinq.RecoveryLedger
import Qlinq.Suppression

namespace Qlinq

/-! Cumulative ACKs of a receiver: which delivered objects they stand for. -/

namespace Conn

def handedOut (c : Conn) (identity : ObjectIdentity) : Prop :=
  ∃ delivered ∈ c.deliveries, delivered.2 = identity

instance (c : Conn) (identity : ObjectIdentity) : Decidable (c.handedOut identity) := by
  unfold handedOut
  infer_instance

/-- ACKs and windows of every generation agree with what was delivered, and each
subscription's state keeps the account of its own. -/
structure Ledger (delivered : ObjectIdentity → Prop) (c : Conn) : Prop where
  sound : ∀ generation, ∀ ack ∈ c.acksIn generation, ∀ window ∈ c.acceptedIn generation,
    window.groupId = ack.groupId → window.firstObjectId ≤ ack.objectId →
    window.AllIn fun groupId objectId => delivered ⟨generation, groupId, objectId⟩
  accounts : ∀ a track, c.receiveSubscriptions.findByAlias a = some track →
    (c.objectGap a).Accounts
      (fun groupId objectId => delivered ⟨c.receiveGeneration a, groupId, objectId⟩)
      (c.acceptedIn (c.receiveGeneration a)) (c.acksIn (c.receiveGeneration a))
  fresh : ∀ generation, c.receiveSubscriptions.nextGeneration < generation →
    c.acksIn generation = [] ∧ c.acceptedIn generation = []
  current : ∀ a track, c.receiveSubscriptions.findByAlias a = some track →
    c.receiveGeneration a ≤ c.receiveSubscriptions.nextGeneration
  distinct : ∀ a b track other, c.receiveSubscriptions.findByAlias a = some track →
    c.receiveSubscriptions.findByAlias b = some other →
    c.receiveGeneration a = c.receiveGeneration b → a = b

theorem ledger_init (delivered : ObjectIdentity → Prop) (id : Nat) (limits : TransportLimits) :
    (init id limits).Ledger delivered where
  sound := by simp [init, acksIn]
  accounts := by simp [init, SubscriptionTable.init, SubscriptionTable.findByAlias, Keyed.lookup]
  fresh := by simp [init, acksIn, acceptedIn]
  current := by simp [init, SubscriptionTable.init, SubscriptionTable.findByAlias, Keyed.lookup]
  distinct := by simp [init, SubscriptionTable.init, SubscriptionTable.findByAlias, Keyed.lookup]

/-! ### Steps without windows and ACKs -/

/-- The step keeps bindings, windows and ACKs. -/
structure KeepsLedger (c c' : Conn) : Prop where
  findByAlias : ∀ a,
    c'.receiveSubscriptions.findByAlias a = c.receiveSubscriptions.findByAlias a
  generation : ∀ a, c'.receiveGeneration a = c.receiveGeneration a
  nextGeneration :
    c'.receiveSubscriptions.nextGeneration = c.receiveSubscriptions.nextGeneration
  windows : ∀ a, (c'.objectGap a).recoveryWindows = (c.objectGap a).recoveryWindows
  announced : ∀ a,
    (c'.objectGap a).lastCheckpointObjectId = (c.objectGap a).lastCheckpointObjectId
  accepted : c'.acceptedWindows = c.acceptedWindows
  acks : ∀ generation, c'.acksIn generation = c.acksIn generation

namespace KeepsLedger

variable {c c' : Conn}

theorem of_untouched (htable : c'.receiveSubscriptions = c.receiveSubscriptions)
    (haccepted : c'.acceptedWindows = c.acceptedWindows)
    (hacks : ∀ generation, c'.acksIn generation = c.acksIn generation) :
    KeepsLedger c c' where
  findByAlias a := by rw [htable]
  generation a := by simp only [receiveGeneration, htable]
  nextGeneration := by rw [htable]
  windows a := by simp only [objectGap, htable]
  announced a := by simp only [objectGap, htable]
  accepted := haccepted
  acks := hacks

theorem refl (c : Conn) : KeepsLedger c c := .of_untouched rfl rfl fun _ => rfl

theorem trans (hfirst : KeepsLedger c c') (hsecond : KeepsLedger c' c'') :
    KeepsLedger c c'' where
  findByAlias a := (hsecond.findByAlias a).trans (hfirst.findByAlias a)
  generation a := (hsecond.generation a).trans (hfirst.generation a)
  nextGeneration := hsecond.nextGeneration.trans hfirst.nextGeneration
  windows a := (hsecond.windows a).trans (hfirst.windows a)
  announced a := (hsecond.announced a).trans (hfirst.announced a)
  accepted := hsecond.accepted.trans hfirst.accepted
  acks generation := (hsecond.acks generation).trans (hfirst.acks generation)

end KeepsLedger

theorem Ledger.keeps {c c' : Conn} (hledger : c.Ledger delivered) (hkept : KeepsLedger c c') :
    c'.Ledger delivered := by
  have haccepted : ∀ generation, c'.acceptedIn generation = c.acceptedIn generation := by
    intro generation
    simp only [acceptedIn, hkept.accepted]
  constructor
  · intro generation
    rw [hkept.acks, haccepted]
    exact hledger.sound generation
  · intro a track hbound
    rw [hkept.findByAlias] at hbound
    rw [hkept.generation, hkept.acks, haccepted]
    exact (hledger.accounts a track hbound).congr (hkept.windows a) (hkept.announced a)
  · intro generation hfresh
    rw [hkept.nextGeneration] at hfresh
    rw [hkept.acks, haccepted]
    exact hledger.fresh generation hfresh
  · intro a track hbound
    rw [hkept.findByAlias] at hbound
    rw [hkept.generation, hkept.nextGeneration]
    exact hledger.current a track hbound
  · intro a b track other hleft hright
    rw [hkept.findByAlias] at hleft hright
    rw [hkept.generation, hkept.generation]
    exact hledger.distinct a b track other hleft hright

theorem Ledger.mono {c : Conn} (hledger : c.Ledger delivered)
    (hmore : ∀ identity, delivered identity → more identity) : c.Ledger more where
  sound generation ack hack window hmem hgroup hfirst objectId hcovers :=
    hmore _ (hledger.sound generation ack hack window hmem hgroup hfirst objectId hcovers)
  accounts a track hbound :=
    (hledger.accounts a track hbound).mono fun _ _ h => hmore _ h
  fresh := hledger.fresh
  current := hledger.current
  distinct := hledger.distinct

theorem keepsLedger_setObjectGap {c : Conn} {gap : ObjectGapState}
    (hwindows : gap.recoveryWindows = (c.objectGap a).recoveryWindows)
    (hlast : gap.lastCheckpointObjectId = (c.objectGap a).lastCheckpointObjectId) :
    KeepsLedger c (c.setObjectGap a gap) where
  findByAlias b := SubscriptionTable.findByAlias_modifyState _ _ _ _
  generation b := receiveGeneration_setObjectGap c a b gap
  nextGeneration := rfl
  windows b := by
    rw [objectGap_setObjectGap]
    split
    · next hb => rw [hb.1, hwindows]
    · rfl
  announced b := by
    rw [objectGap_setObjectGap]
    split
    · next hb => rw [hb.1, hlast]
    · rfl
  accepted := rfl
  acks _ := rfl

theorem keepsLedger_quiclyClose (c : Conn) (code : AppError) (reason : String) :
    KeepsLedger c (c.quiclyClose code reason) := by
  unfold quiclyClose
  split <;> exact .of_untouched rfl rfl fun _ => rfl

theorem keepsLedger_protocolClose (c : Conn) (reason : String) :
    KeepsLedger c (c.protocolClose reason) :=
  keepsLedger_quiclyClose c _ reason

theorem keepsLedger_writeControlFrame (c : Conn) {frame : Sent ControlFrame}
    (hframe : frame.checkpointAck = none) :
    KeepsLedger c (c.writeControlFrame frame).1 := by
  obtain ⟨htable, _, _, haccepted⟩ := writeControlFrame_untouched c frame
  exact .of_untouched htable haccepted (acksIn_writeControlFrame c hframe)

theorem keepsLedger_sendNack (c : Conn) (request : Nack) (withheld : Bool) :
    KeepsLedger c (c.sendNack request withheld) := by
  unfold sendNack
  split
  · exact .refl c
  · exact keepsLedger_writeControlFrame c rfl

theorem keepsLedger_bindStream (c : Conn) (stream : Nat) (a : TrackAlias) :
    KeepsLedger c (c.bindStream stream a) := by
  unfold bindStream
  split
  · exact .of_untouched rfl rfl fun _ => rfl
  · exact .refl c

theorem keepsLedger_receiveTrackObject (c : Conn) (stream : Nat) (object : Sent TrackObject) :
    KeepsLedger c (c.receiveTrackObject stream object) := by
  unfold receiveTrackObject parseTrackObject
  split
  · exact keepsLedger_quiclyClose c _ _
  split
  · exact keepsLedger_quiclyClose c _ _
  simp only
  split
  · exact keepsLedger_protocolClose c _
  have hbind := keepsLedger_bindStream c stream object.message.trackAlias
  split
  · exact hbind
  split
  · exact hbind.trans (keepsLedger_protocolClose _ _)
  · exact hbind.trans (.of_untouched rfl rfl fun _ => rfl)

theorem keepsLedger_expireAssembler (c : Conn) (slot : Nat) :
    KeepsLedger c (c.expireAssembler slot) := by
  unfold expireAssembler
  split
  · exact .refl c
  split
  · exact .refl c
  simp only
  split <;> exact .of_untouched rfl rfl fun _ => rfl

theorem keepsLedger_receiveHello (c : Conn) (limits : TransportLimits) (hello : Hello) :
    KeepsLedger c (c.receiveHello limits hello) := by
  unfold receiveHello
  split
  · exact .refl c
  split
  · exact keepsLedger_protocolClose c _
  · exact .of_untouched rfl rfl fun _ => rfl

theorem keepsLedger_respondAuth (c : Conn) (success : Bool) :
    KeepsLedger c (c.respondAuth success) := by
  unfold respondAuth
  split
  · exact .refl c
  split
  · exact .of_untouched rfl rfl fun _ => rfl
  · exact keepsLedger_quiclyClose c _ _

theorem keepsLedger_openAssembler (c : Conn) (env : ReceiveEnv) (header : FecHeader) :
    KeepsLedger c (c.openAssembler env header).1 := by
  unfold openAssembler
  extract_lets selected lossy advanced
  have hlossy : KeepsLedger c lossy := by
    simp only [lossy]
    split
    · exact .refl c
    split <;> exact .of_untouched rfl rfl fun _ => rfl
  split <;> exact hlossy.trans (.of_untouched rfl rfl fun _ => rfl)

/-- A fresh subscription starts an account without windows. -/
theorem Ledger.resubscribes {c c' : Conn} (hledger : c.Ledger delivered)
    (hcalls : Resubscribes c c') : c'.Ledger delivered := by
  obtain ⟨fresh, hbindings⟩ := hcalls.bindings
  have hnext := hcalls.nextGeneration
  have haccepted : ∀ generation, c'.acceptedIn generation = c.acceptedIn generation := by
    intro generation
    simp only [acceptedIn, hcalls.acceptedWindows]
  constructor
  · intro generation
    rw [hcalls.acks, haccepted]
    exact hledger.sound generation
  · intro a track hbound
    rw [hcalls.acks, haccepted]
    cases hbindings a track hbound with
    | inl hold =>
        obtain ⟨hbound, hgeneration, hgap⟩ := hold
        rw [hgeneration, hgap]
        exact hledger.accounts a track hbound
    | inr hnew =>
        obtain ⟨_, _, hgeneration, hgap⟩ := hnew
        obtain ⟨hacks, hwindows⟩ := hledger.fresh (c'.receiveGeneration a) (by omega)
        rw [hgap, hacks, hwindows]
        exact ObjectGapState.accounts_initial _
  · intro generation hfresh
    rw [hcalls.acks, haccepted]
    exact hledger.fresh generation (by omega)
  · intro a track hbound
    cases hbindings a track hbound with
    | inl hold =>
        have := hledger.current a track hold.1
        omega
    | inr hnew => omega
  · intro a b track other hleft hright hsame
    cases hbindings a track hleft with
    | inl hold =>
        have hcurrent := hledger.current a track hold.1
        cases hbindings b other hright with
        | inl hother =>
            rw [hold.2.1, hother.2.1] at hsame
            exact hledger.distinct a b track other hold.1 hother.1 hsame
        | inr hnew => omega
    | inr hnew =>
        cases hbindings b other hright with
        | inl hother =>
            have := hledger.current b other hother.1
            omega
        | inr hother => exact hnew.1.trans hother.1.symm

/-! ### ACKs -/

/-- The connection with an ACK on a stream that takes it. -/
def withAck (c : Conn) (a : TrackAlias) (groupId finalObjectId : Nat) : Conn :=
  { c with
    control := c.control ++ [c.receiveFrame a (ControlFrame.trackCheckpointAck
      { trackAlias := a, groupId := groupId, finalObjectId := finalObjectId })]
    admissions := c.admissions.tail }

theorem acksIn_withAck (c : Conn) (a : TrackAlias) (groupId finalObjectId : Nat)
    (generation : Nat) :
    (c.withAck a groupId finalObjectId).acksIn generation =
      c.acksIn generation ++
        if c.receiveGeneration a = generation then [⟨groupId, finalObjectId⟩] else [] := by
  simp only [withAck, acksIn, List.filter_append, List.filterMap_append,
    List.filter_singleton, receiveFrame]
  cases hsame : decide (c.receiveGeneration a = generation) with
  | true =>
      have hsame := of_decide_eq_true hsame
      simp [hsame, Sent.checkpointAck]
  | false =>
      have hsame := of_decide_eq_false hsame
      simp [hsame]

theorem Ledger.withAck {c : Conn} (hledger : c.Ledger delivered)
    (hbound : c.receiveSubscriptions.findByAlias a = some track)
    (hready : (c.objectGap a).Ready groupId finalObjectId)
    (hannounced : (c.objectGap a).announcedThrough finalObjectId = true) :
    (c.withAck a groupId finalObjectId).Ledger delivered := by
  have hacks := acksIn_withAck c a groupId finalObjectId
  refine ⟨fun generation ack hack => ?_, fun b other hother => ?_, fun generation hfresh => ?_,
    hledger.current, hledger.distinct⟩
  · rw [hacks] at hack
    cases List.mem_append.mp hack with
    | inl hold => exact hledger.sound generation ack hold
    | inr hnew =>
        split at hnew
        · next hhere =>
            obtain rfl := List.mem_singleton.mp hnew
            subst hhere
            intro window hmem hgroup hfirst
            exact (hledger.accounts a track hbound).delivered_of_ready hready hmem hgroup hfirst
        · simp at hnew
  · change (c.objectGap b).Accounts _ (c.acceptedIn (c.receiveGeneration b))
      ((c.withAck a groupId finalObjectId).acksIn (c.receiveGeneration b))
    rw [hacks]
    split
    · next hsame =>
        obtain rfl := hledger.distinct a b track other hbound hother hsame
        exact (hledger.accounts a track hbound).ack hannounced
    · rw [List.append_nil]
      exact hledger.accounts b other hother
  · rw [hacks]
    have hcurrent := hledger.current a track hbound
    have hgeneration : c.receiveGeneration a ≠ generation := by
      intro h
      change c.receiveSubscriptions.nextGeneration < generation at hfresh
      omega
    rw [if_neg hgeneration, List.append_nil]
    exact hledger.fresh generation hfresh

theorem sendCheckpointAck_cases (c : Conn) (a : TrackAlias) (groupId finalObjectId : Nat) :
    (KeepsLedger c (c.sendCheckpointAck a groupId finalObjectId).1 ∧
        (c.sendCheckpointAck a groupId finalObjectId).2 = false) ∨
      c.sendCheckpointAck a groupId finalObjectId = (c.withAck a groupId finalObjectId, true) := by
  unfold Conn.sendCheckpointAck
  split
  · exact Or.inl ⟨.refl c, rfl⟩
  unfold writeControlFrame
  split
  · exact Or.inl ⟨.refl c, rfl⟩
  split
  · exact Or.inr rfl
  · have hdrained : KeepsLedger c { c with admissions := c.admissions.tail } :=
      .of_untouched rfl rfl fun _ => rfl
    exact Or.inl ⟨hdrained.trans (keepsLedger_quiclyClose _ _ _), rfl⟩

theorem Ledger.sendCheckpointAck {c : Conn} (hledger : c.Ledger delivered)
    (hbound : c.receiveSubscriptions.findByAlias a = some track)
    (hready : (c.objectGap a).Ready groupId finalObjectId)
    (hannounced : (c.objectGap a).announcedThrough finalObjectId = true) :
    (c.sendCheckpointAck a groupId finalObjectId).1.Ledger delivered := by
  cases sendCheckpointAck_cases c a groupId finalObjectId with
  | inl hunsent => exact hledger.keeps hunsent.1
  | inr hsent =>
      rw [hsent]
      exact hledger.withAck hbound hready hannounced

theorem sendCheckpointAck_untouched (c : Conn) (a : TrackAlias)
    (groupId finalObjectId : Nat) :
    (c.sendCheckpointAck a groupId finalObjectId).1.receiveSubscriptions =
      c.receiveSubscriptions := by
  unfold Conn.sendCheckpointAck
  split
  · rfl
  · exact (writeControlFrame_untouched c _).1

theorem keepsLedger_retireRecoveryThrough (c : Conn) (a : TrackAlias)
    (groupId finalObjectId : Nat) :
    KeepsLedger c (c.retireRecoveryThrough a groupId finalObjectId) := by
  have hretired : KeepsLedger c (c.setObjectGap a
      ((c.objectGap a).retirePending groupId finalObjectId)) := by
    apply keepsLedger_setObjectGap
    · unfold ObjectGapState.retirePending
      split <;> rfl
    · unfold ObjectGapState.retirePending
      split <;> rfl
  exact hretired.trans (.of_untouched rfl rfl fun _ => rfl)

/-- A new state of one subscription that keeps the same account. -/
theorem Ledger.setObjectGap {c : Conn} (hledger : c.Ledger delivered) (a : TrackAlias)
    (haccounts : ∀ track, c.receiveSubscriptions.findByAlias a = some track →
      gap.Accounts
        (fun groupId objectId => delivered ⟨c.receiveGeneration a, groupId, objectId⟩)
        (c.acceptedIn (c.receiveGeneration a)) (c.acksIn (c.receiveGeneration a))) :
    (c.setObjectGap a gap).Ledger delivered := by
  have hgeneration := receiveGeneration_setObjectGap c a
  refine ⟨hledger.sound, fun b other hother => ?_, hledger.fresh, fun b other hother => ?_,
    fun b d left right hleft hright => ?_⟩
  · rw [hgeneration, objectGap_setObjectGap]
    split
    · next hb =>
        rw [hb.1]
        exact haccounts other (hb.1 ▸ hother)
    · exact hledger.accounts b other hother
  · rw [hgeneration]
    exact hledger.current b other hother
  · rw [hgeneration, hgeneration]
    exact hledger.distinct b d left right hleft hright

theorem Ledger.acknowledgeRounds {c : Conn} (hledger : c.Ledger delivered)
    (hbound : c.receiveSubscriptions.findByAlias a = some track) (fuel : Nat) :
    (Conn.acknowledgeRounds a fuel c).1.Ledger delivered := by
  induction fuel generalizing c with
  | zero => exact hledger
  | succ fuel ih =>
      have haccounts := hledger.accounts a track hbound
      unfold Conn.acknowledgeRounds
      simp only
      split
      · exact hledger
      next first hearliest =>
      split
      · exact hledger
      next hcomplete =>
      split
      · exact hledger
      obtain ⟨hready, hannounced⟩ := haccounts.ready_completedThrough first.groupId
        (c.objectGap a).recoveryWindows.length
        (haccounts.ready_earliest hearliest (by simpa using hcomplete) first.groupId)
        (haccounts.announced first (ObjectGapState.earliest_spec hearliest).1)
      generalize ObjectGapState.completedThrough (c.objectGap a).recoveryWindows
        first.groupId (c.objectGap a).recoveryWindows.length first.finalObjectId =
        finalObjectId at hready hannounced ⊢
      have hsend := hledger.sendCheckpointAck hbound hready hannounced
      have htable := sendCheckpointAck_untouched c a first.groupId finalObjectId
      split
      · next hfailed =>
          rw [hfailed] at hsend
          exact hsend
      · next sent hsent =>
          rw [hsent] at hsend
          have htable : sent.receiveSubscriptions = c.receiveSubscriptions := by
            rw [hsent] at htable
            exact htable
          have hretired := keepsLedger_retireRecoveryThrough sent a first.groupId finalObjectId
          have hkept := hsend.keeps hretired
          refine ih (hkept.setObjectGap a fun other hother => ?_) ?_
          · refine (hkept.accounts a other hother).dropWindowsThrough ?_
            unfold ObjectGapState.Ready
            rw [hretired.windows]
            simp only [objectGap, htable]
            exact hready
          · change (sent.retireRecoveryThrough a first.groupId finalObjectId
              ).receiveSubscriptions.findByAlias a = some track
            rw [hretired.findByAlias, htable]
            exact hbound

theorem Ledger.acknowledge {c : Conn} (hledger : c.Ledger delivered)
    (hbound : c.receiveSubscriptions.findByAlias a = some track) :
    (c.acknowledgeCompletedRecoveryWindows a).1.Ledger delivered :=
  hledger.acknowledgeRounds hbound _

theorem findByAlias_acknowledge (c : Conn) (a b : TrackAlias) :
    (c.acknowledgeCompletedRecoveryWindows a).1.receiveSubscriptions.findByAlias b =
      c.receiveSubscriptions.findByAlias b :=
  (frame_keepsDelivered.answers.acknowledge c a).findByAlias b

theorem Ledger.flushRecoveryAcks {c : Conn} (hledger : c.Ledger delivered) :
    c.flushRecoveryAcks.Ledger delivered := by
  unfold Conn.flushRecoveryAcks
  split
  · exact hledger
  next hopen =>
  clear hopen
  have hentries : ∀ entry ∈ c.receiveSubscriptions.entries,
      c.receiveSubscriptions.findByAlias entry.trackAlias = some entry.trackId :=
    fun entry hentry => SubscriptionTable.findByAlias_eq_some_iff.mpr
      ⟨entry, hentry, rfl, rfl⟩
  generalize c.receiveSubscriptions.entries = entries at hentries ⊢
  induction entries generalizing c with
  | nil => exact hledger
  | cons entry rest ih =>
      obtain ⟨hfirst, hrest⟩ := List.forall_mem_cons.mp hentries
      rw [List.foldl_cons]
      split
      · refine ih (hledger.acknowledge hfirst) fun other hother => ?_
        rw [findByAlias_acknowledge]
        exact hrest other hother
      · exact ih hledger hrest

/-! ### Windows -/

/-- The connection once a window of an alias is on record. -/
def withWindow (c : Conn) (a : TrackAlias) (window : RecoveryWindow) : Conn :=
  { c with acceptedWindows := c.acceptedWindows ++ [c.receiveFrame a (a, window)] }

theorem acceptedIn_withWindow (c : Conn) (a : TrackAlias) (window : RecoveryWindow)
    (generation : Nat) :
    (c.withWindow a window).acceptedIn generation = c.acceptedIn generation ++
      if c.receiveGeneration a = generation then [window] else [] := by
  simp only [withWindow, acceptedIn, List.filter_append, List.map_append,
    List.filter_singleton, receiveFrame]
  cases hsame : decide (c.receiveGeneration a = generation) with
  | true =>
      have hsame := of_decide_eq_true hsame
      simp [hsame]
  | false =>
      have hsame := of_decide_eq_false hsame
      simp [hsame]

theorem Ledger.withWindow {c : Conn} (hledger : c.Ledger delivered)
    (hbound : c.receiveSubscriptions.findByAlias a = some track)
    (haccounts : gap.Accounts
      (fun groupId objectId => delivered ⟨c.receiveGeneration a, groupId, objectId⟩)
      (c.acceptedIn (c.receiveGeneration a) ++ [window]) (c.acksIn (c.receiveGeneration a)))
    (hlater : ∀ ack ∈ c.acksIn (c.receiveGeneration a), ack.objectId < window.firstObjectId) :
    ((c.withWindow a window).setObjectGap a gap).Ledger delivered := by
  have haccepted := acceptedIn_withWindow c a window
  have hgeneration := receiveGeneration_setObjectGap (c.withWindow a window) a
  refine ⟨fun generation ack hack other hmem => ?_, fun b other hother => ?_,
    fun generation hfresh => ?_, fun b other hother => ?_,
    fun b d left right hleft hright => ?_⟩
  · change other ∈ (c.withWindow a window).acceptedIn generation at hmem
    rw [haccepted] at hmem
    cases List.mem_append.mp hmem with
    | inl hold => exact hledger.sound generation ack hack other hold
    | inr hnew =>
        split at hnew
        · next hhere =>
            obtain rfl := List.mem_singleton.mp hnew
            subst hhere
            intro _ hfirst
            have := hlater ack hack
            omega
        · simp at hnew
  · rw [hgeneration, objectGap_setObjectGap]
    have hstate : (c.receiveSubscriptions.getState a).isSome :=
      SubscriptionTable.getState_isSome_iff.mpr ⟨track, hbound⟩
    by_cases hb : b = a
    · subst hb
      rw [if_pos ⟨rfl, hstate⟩]
      change gap.Accounts _ ((c.withWindow b window).acceptedIn (c.receiveGeneration b))
        (c.acksIn (c.receiveGeneration b))
      rw [haccepted, if_pos rfl]
      exact haccounts
    · rw [if_neg fun h => hb h.1]
      change (c.objectGap b).Accounts _
        ((c.withWindow a window).acceptedIn (c.receiveGeneration b))
        (c.acksIn (c.receiveGeneration b))
      have hother' : c.receiveGeneration a ≠ c.receiveGeneration b := fun h =>
        hb (hledger.distinct a b track other hbound hother h).symm
      rw [haccepted, if_neg hother', List.append_nil]
      exact hledger.accounts b other hother
  · change c.acksIn generation = [] ∧ (c.withWindow a window).acceptedIn generation = []
    have hcurrent := hledger.current a track hbound
    have hother : c.receiveGeneration a ≠ generation := by
      intro h
      change c.receiveSubscriptions.nextGeneration < generation at hfresh
      omega
    rw [haccepted, if_neg hother, List.append_nil]
    exact hledger.fresh generation hfresh
  · rw [hgeneration]
    exact hledger.current b other hother
  · rw [hgeneration, hgeneration]
    exact hledger.distinct b d left right hleft hright

/-- What the state remembers as delivered in the range was delivered in the group. -/
def KnowsGroup (c : Conn) (a : TrackAlias) (groupId firstObjectId finalObjectId : Nat) : Prop :=
  ∀ offset < finalObjectId - firstObjectId + 1,
    (c.objectGap a).objectIsRecentlyDelivered (firstObjectId + offset) = true →
    c.handedOut ⟨c.receiveGeneration a, groupId, firstObjectId + offset⟩

instance (c : Conn) (a : TrackAlias) (groupId firstObjectId finalObjectId : Nat) :
    Decidable (c.KnowsGroup a groupId firstObjectId finalObjectId) := by
  unfold KnowsGroup
  infer_instance

theorem Ledger.openWindow {c : Conn} (hledger : c.Ledger c.handedOut)
    (hbound : c.receiveSubscriptions.findByAlias a = some track)
    (hspan : ¬ (finalObjectId < firstObjectId ∨
      recoveryWindowObjects ≤ finalObjectId - firstObjectId))
    (hnew : (c.objectGap a).announcedThrough finalObjectId = false)
    (hnext : (c.objectGap a).discontinuous firstObjectId = false)
    (hknows : c.KnowsGroup a groupId firstObjectId finalObjectId) (acknowledge : Bool) :
    (c.openWindow a ((c.objectGap a).newWindow groupId firstObjectId finalObjectId)
      acknowledge).1.Ledger c.handedOut := by
  have haccounts := hledger.accounts a track hbound
  have hshort : finalObjectId - firstObjectId < 32 := by
    simp only [recoveryWindowObjects] at hspan
    omega
  obtain ⟨htracked, hdone, hlater⟩ := haccounts.accept
    ((c.objectGap a).newWindow groupId firstObjectId finalObjectId) hnew hnext
    ⟨by simp only [ObjectGapState.newWindow]; omega,
      by simp only [ObjectGapState.newWindow]; omega⟩ (by
        intro objectId hcovers hbit
        obtain ⟨hfirst, hfinal⟩ := hcovers
        simp only [ObjectGapState.newWindow] at hfirst hfinal hbit ⊢
        have hoffset : firstObjectId + (objectId - firstObjectId) = objectId := by omega
        have hinside : objectId - firstObjectId < finalObjectId - firstObjectId + 1 := by omega
        rw [ObjectGapState.getLsbD_missingObjects _ _ _ _ (by omega), hoffset] at hbit
        have hrecent : (c.objectGap a).objectIsRecentlyDelivered objectId = true := by
          simpa [hinside] using hbit
        have hhanded := hknows (objectId - firstObjectId) hinside
        rw [hoffset] at hhanded
        exact hhanded hrecent)
  generalize (c.objectGap a).newWindow groupId firstObjectId finalObjectId = window
    at htracked hdone hlater ⊢
  have hopened := hledger.withWindow hbound htracked hlater
  unfold Conn.openWindow
  simp only
  split
  · exact hopened.acknowledge hbound
  split
  · next hcomplete => exact hledger.withWindow hbound (hdone hcomplete) hlater
  · exact hopened

/-- A checkpoint that is answered at once reaches complete windows only, and one that
opens a window knows which of its objects arrived. -/
def CheckpointSound (c : Conn) (a : TrackAlias) (groupId firstObjectId finalObjectId : Nat) :
    Prop :=
  (finalObjectId < firstObjectId ∨ recoveryWindowObjects ≤ finalObjectId - firstObjectId) ∨
    ((c.objectGap a).findRecoveryWindow groupId firstObjectId finalObjectId).isSome ∨
    if (c.objectGap a).announcedThrough finalObjectId then
      (c.objectGap a).Ready groupId finalObjectId
    else
      (c.objectGap a).discontinuous firstObjectId = true ∨
        c.KnowsGroup a groupId firstObjectId finalObjectId

instance (c : Conn) (a : TrackAlias) (groupId firstObjectId finalObjectId : Nat) :
    Decidable (c.CheckpointSound a groupId firstObjectId finalObjectId) := by
  unfold CheckpointSound
  infer_instance

theorem Ledger.receiveRecoveryCheckpoint {c : Conn} (hledger : c.Ledger c.handedOut)
    (hbound : c.receiveSubscriptions.findByAlias a = some track) (acknowledge : Bool)
    (hsound : (acknowledge = false ∧ (c.objectGap a).announcedThrough finalObjectId = true) ∨
      c.CheckpointSound a groupId firstObjectId finalObjectId) :
    (c.receiveRecoveryCheckpoint a groupId firstObjectId finalObjectId acknowledge).1.Ledger
      c.handedOut := by
  unfold Conn.receiveRecoveryCheckpoint
  unfold CheckpointSound at hsound
  split
  · exact hledger
  next hspan =>
  simp only
  split
  · exact hledger
  next hinactive =>
  split
  · next hannounced =>
      rw [if_pos hannounced] at hsound
      split
      · next hacks =>
          have hready := ((hsound.resolve_left (by simp [hacks])).resolve_left hspan
            ).resolve_left hinactive
          exact hledger.sendCheckpointAck hbound hready hannounced
      · exact hledger
  next hnew =>
  rw [if_neg hnew] at hsound
  have hsound := ((hsound.resolve_left (by simp [hnew])).resolve_left hspan
    ).resolve_left hinactive
  split
  · exact hledger
  next hnext =>
  split
  · exact hledger
  · exact hledger.openWindow hbound hspan (by simpa using hnew) (by simpa using hnext)
      (hsound.resolve_left hnext) acknowledge

theorem withAck_setObjectGap (c : Conn) (a : TrackAlias) (groupId finalObjectId : Nat)
    (gap : ObjectGapState) :
    (c.withAck a groupId finalObjectId).setObjectGap a gap =
      (c.setObjectGap a gap).withAck a groupId finalObjectId := by
  simp only [withAck, receiveFrame, receiveGeneration_setObjectGap]
  rfl

theorem Ledger.receiveBaseline {c : Conn} (hledger : c.Ledger delivered)
    (hbound : c.receiveSubscriptions.findByAlias checkpoint.trackAlias = some track)
    (hready : checkpoint.firstObjectId = checkpoint.finalObjectId →
      (c.objectGap checkpoint.trackAlias).regresses checkpoint.finalObjectId = false →
      (c.objectGap checkpoint.trackAlias).Ready checkpoint.groupId checkpoint.finalObjectId) :
    (c.receiveBaseline checkpoint).Ledger delivered := by
  unfold Conn.receiveBaseline
  simp only
  split
  · exact hledger.keeps (keepsLedger_protocolClose c _)
  next hvalid =>
  rw [not_or, not_not, Bool.not_eq_true] at hvalid
  obtain ⟨hsame, hregresses⟩ := hvalid
  generalize checkpoint.trackAlias = a at hbound hready hregresses ⊢
  have hready := hready hsame hregresses
  have hstate : (c.receiveSubscriptions.getState a).isSome :=
    SubscriptionTable.getState_isSome_iff.mpr ⟨track, hbound⟩
  cases sendCheckpointAck_cases c a checkpoint.groupId checkpoint.finalObjectId with
  | inl hunsent =>
      obtain ⟨hkept, hfalse⟩ := hunsent
      split
      · next hfailed =>
          rw [hfailed] at hkept
          exact hledger.keeps (hkept.trans (keepsLedger_protocolClose _ _))
      · next hsent =>
          rw [hsent] at hfalse
          simp at hfalse
  | inr hsent =>
      rw [hsent]
      simp only
      rw [withAck_setObjectGap]
      -- The ACK goes out before the baseline is on record; for the account it follows it.
      have hbaseline := hledger.setObjectGap a fun other hother =>
        (hledger.accounts a other hother).baseline hregresses
      have hgap := objectGap_setObjectGap c a a
        { c.objectGap a with lastCheckpointObjectId := some checkpoint.finalObjectId }
      rw [if_pos ⟨rfl, hstate⟩] at hgap
      refine hbaseline.withAck hbound ?_ ?_
      · rw [hgap]
        exact hready
      · rw [hgap]
        exact ObjectGapState.announcedThrough_iff.mpr ⟨_, rfl, le_refl _⟩

/-! ### Frames -/

theorem recoveryTrack_bound {c : Conn} (htrack : (c.recoveryTrack a).isNone = false) :
    (c.recoveryTrack a).isSome = true ∧
      ∃ track, c.receiveSubscriptions.findByAlias a = some track := by
  unfold recoveryTrack at htrack ⊢
  cases hfound : (c.receiveSubscriptions.findByAlias a).filter TrackId.isRatelessData with
  | none => simp [hfound] at htrack
  | some track => exact ⟨rfl, track, (Option.filter_eq_some_iff.mp hfound).1⟩

/-- The checkpoint, once past the checks of the control stream, is answered soundly. -/
def AnswersSoundly (c : Conn) (checkpoint : TrackCheckpoint) : Prop :=
  if checkpoint.baseline then
    checkpoint.firstObjectId = checkpoint.finalObjectId →
      (c.objectGap checkpoint.trackAlias).regresses checkpoint.finalObjectId = false →
      (c.objectGap checkpoint.trackAlias).Ready checkpoint.groupId checkpoint.finalObjectId
  else
    c.CheckpointSound checkpoint.trackAlias checkpoint.groupId checkpoint.firstObjectId
      checkpoint.finalObjectId

instance (c : Conn) (checkpoint : TrackCheckpoint) : Decidable (c.AnswersSoundly checkpoint) := by
  unfold AnswersSoundly
  infer_instance

/-- The end of the track, where it opens a window, knows which of its objects arrived. -/
def EndsSoundly (c : Conn) (finish : TrackEnd) : Prop :=
  (c.objectGap finish.trackAlias).announcedThrough finish.finalObjectId = true ∨
    c.CheckpointSound finish.trackAlias finish.groupId
      (trackEndFirst (c.objectGap finish.trackAlias).lastCheckpointObjectId
        c.checkpointCapable finish.finalObjectId) finish.finalObjectId

instance (c : Conn) (finish : TrackEnd) : Decidable (c.EndsSoundly finish) := by
  unfold EndsSoundly
  infer_instance

theorem Ledger.receiveTrackCheckpoint {c : Conn} (hledger : c.Ledger c.handedOut)
    (hsound : c.authenticated = true → c.checkpointCapable = true →
      (c.recoveryTrack checkpoint.trackAlias).isSome = true → c.AnswersSoundly checkpoint) :
    (c.receiveTrackCheckpoint checkpoint).Ledger c.handedOut := by
  unfold Conn.receiveTrackCheckpoint
  split
  · exact hledger.keeps (keepsLedger_protocolClose c _)
  next hvalid =>
  simp only [Bool.or_eq_true, not_or, Bool.not_eq_true, Bool.not_eq_false'] at hvalid
  obtain ⟨⟨hauthenticated, hcapable⟩, hrecovers⟩ := hvalid
  obtain ⟨hrecovers, track, hbound⟩ := recoveryTrack_bound hrecovers
  have hsound := hsound hauthenticated hcapable hrecovers
  unfold AnswersSoundly at hsound
  split
  · next hbaseline =>
      rw [if_pos hbaseline] at hsound
      exact hledger.receiveBaseline hbound hsound
  next hcheckpoint =>
  rw [if_neg hcheckpoint] at hsound
  have hwindow := hledger.receiveRecoveryCheckpoint hbound true (Or.inr hsound)
  split
  · next haccepted =>
      rw [haccepted] at hwindow
      exact hwindow
  · next hrefused =>
      rw [hrefused] at hwindow
      exact hwindow.keeps (keepsLedger_protocolClose _ _)

theorem Ledger.receiveTrackEnd {c : Conn} (hledger : c.Ledger c.handedOut)
    (hsound : c.authenticated = true →
      (c.recoveryTrack finish.trackAlias).isSome = true → c.EndsSoundly finish) :
    (c.receiveTrackEnd finish).Ledger c.handedOut := by
  unfold Conn.receiveTrackEnd
  split
  · exact hledger.keeps (keepsLedger_protocolClose c _)
  next hvalid =>
  simp only [Bool.or_eq_true, not_or, Bool.not_eq_true, Bool.not_eq_false'] at hvalid
  obtain ⟨hauthenticated, hrecovers⟩ := hvalid
  obtain ⟨hrecovers, track, hbound⟩ := recoveryTrack_bound hrecovers
  have hsound := hsound hauthenticated hrecovers
  simp only
  split
  · next hannounced =>
      rw [Bool.and_eq_true] at hannounced
      split
      · exact hledger
      next hdone =>
      rw [ne_eq, not_not] at hdone
      have hready : (c.objectGap finish.trackAlias).Ready finish.groupId finish.finalObjectId := by
        unfold ObjectGapState.Ready
        rw [hdone]
        simp
      have hack := hledger.sendCheckpointAck hbound hready hannounced.2
      split
      · next hfailed =>
          rw [hfailed] at hack
          exact hack.keeps (keepsLedger_protocolClose _ _)
      · next hsent =>
          rw [hsent] at hack
          exact hack.keeps (keepsLedger_retireRecoveryThrough _ _ _ _)
  · next hunannounced =>
      have hwindow : (c.receiveRecoveryCheckpoint finish.trackAlias finish.groupId
          (trackEndFirst (c.objectGap finish.trackAlias).lastCheckpointObjectId
            c.checkpointCapable finish.finalObjectId) finish.finalObjectId
          c.checkpointCapable).1.Ledger c.handedOut := by
        apply hledger.receiveRecoveryCheckpoint hbound
        cases hsound with
        | inl hannounced => exact Or.inl ⟨by simpa [hannounced] using hunannounced, hannounced⟩
        | inr hopens => exact Or.inr hopens
      split
      · next haccepted =>
          rw [haccepted] at hwindow
          exact hwindow
      · next hrefused =>
          rw [hrefused] at hwindow
          exact hwindow.keeps (keepsLedger_protocolClose _ _)

/-! ### Datagrams -/

theorem Ledger.recoveryMarkDelivered {c : Conn} (hledger : c.Ledger delivered)
    (hbound : c.receiveSubscriptions.findByAlias a = some track)
    (hmore : ∀ identity, delivered identity → more identity)
    (hhere : more ⟨c.receiveGeneration a, groupId, objectId⟩) :
    (c.recoveryMarkDelivered a groupId objectId).Ledger more := by
  unfold Conn.recoveryMarkDelivered
  refine Ledger.acknowledge ((hledger.mono hmore).setObjectGap a fun other hother => ?_) hbound
  refine ((hledger.accounts a other hother).clearMissing groupId objectId).mono ?_
  intro group id hdelivered
  cases hdelivered with
  | inl hold => exact hmore _ hold
  | inr hnew =>
      obtain ⟨rfl, rfl⟩ := hnew
      exact hhere

theorem Delivers.handedOut_iff {c c' : Conn}
    (hdelivers : Delivers c c' track a groupId objectId) (identity : ObjectIdentity) :
    c'.handedOut identity ↔
      c.handedOut identity ∨ ⟨c.receiveGeneration a, groupId, objectId⟩ = identity := by
  unfold handedOut
  rw [hdelivers.deliveries]
  simp only [List.mem_append, List.mem_singleton, or_and_right, exists_or, exists_eq_left]

theorem Ledger.completeObject {c : Conn} (hledger : c.Ledger c.handedOut)
    (hbound : c.receiveSubscriptions.findByAlias assembler.trackAlias = some track)
    (hdatagram : (trackProfile track).reliable = false) (slot : Nat) (blocks : List Bytes) :
    (c.completeObject slot track assembler blocks).Ledger
      (c.completeObject slot track assembler blocks).handedOut := by
  have hhanded := (delivers_completeObject hbound hdatagram slot blocks).handedOut_iff
  generalize (c.completeObject slot track assembler blocks).handedOut = more at hhanded ⊢
  have hmore := fun identity h => (hhanded identity).mpr (Or.inl h)
  unfold Conn.completeObject
  extract_lets a generation completed ringed marked
  have hringed : ringed.Ledger c.handedOut :=
    hledger.keeps (.of_untouched rfl rfl fun _ => rfl)
  have hmarked : marked.Ledger more := by
    simp only [marked]
    split
    · obtain ⟨hwindows, hlast⟩ := ObjectGapState.sameWindows_markObjectDelivered (ringed.objectGap a)
        assembler.objectId
      have hkept := keepsLedger_setObjectGap hwindows hlast
      refine (hringed.keeps hkept).recoveryMarkDelivered hbound hmore ?_
      rw [hkept.generation]
      exact (hhanded _).mpr (Or.inr rfl)
    · exact hringed.mono hmore
  exact hmarked.keeps (.of_untouched rfl rfl fun _ => rfl)

/-- The account agrees with the events emitted so far. -/
def Accountable (c : Conn) : Prop := c.Ledger c.handedOut

theorem Accountable.of_ledger {c c' : Conn} (hledger : c'.Ledger c.handedOut)
    (hdeliveries : c'.deliveries = c.deliveries) : c'.Accountable := by
  unfold Accountable
  have hsame : c'.handedOut = c.handedOut := by
    unfold handedOut
    rw [hdeliveries]
  rw [hsame]
  exact hledger

theorem Accountable.keeps {c c' : Conn} (haccountable : c.Accountable)
    (hkept : KeepsLedger c c') (hdelivered : KeepsDelivered c c') : c'.Accountable :=
  .of_ledger (Ledger.keeps haccountable hkept) hdelivered.deliveries

/-- A recovery frame behind the checks of the control stream. -/
theorem Accountable.receiveRecoveryFrame {c : Conn} (haccountable : c.Accountable)
    (frame : Conn → Conn) (hdelivered : KeepsDelivered c (frame c))
    (hframe : c.closed = none → c.helloReceived = true → (frame c).Ledger c.handedOut) :
    (c.receiveRecoveryFrame frame).Accountable := by
  unfold Conn.receiveRecoveryFrame
  split
  · exact haccountable
  next hopen =>
  split
  · exact haccountable.keeps (keepsLedger_protocolClose c _)
      (frame_keepsDelivered.protocolClose c _)
  next hhello =>
  exact .of_ledger (hframe (by simpa using hopen) (by simpa using hhello))
    hdelivered.deliveries

theorem Accountable.assemble {c : Conn} (haccountable : c.Accountable)
    (hbound : c.receiveSubscriptions.findByAlias assembler.trackAlias = some track)
    (hdatagram : (trackProfile track).reliable = false) (env : ReceiveEnv) (slot : Nat)
    (datagram : Sent Datagram) :
    (c.assemble env track slot assembler datagram).Accountable := by
  unfold Conn.assemble
  extract_lets header grown accepted stored
  have halias : accepted.trackAlias = assembler.trackAlias := by
    simp only [accepted, acceptSymbol]
    split <;> rfl
  have hstored : stored.Accountable :=
    haccountable.keeps (.of_untouched rfl rfl fun _ => rfl) (.of_untouched rfl rfl rfl)
  split
  · exact haccountable
  split
  · exact hstored
  split
  · exact hstored
  · exact Ledger.completeObject hstored (by rw [halias]; exact hbound) hdatagram slot _

theorem Accountable.receiveDatagram {c : Conn} (haccountable : c.Accountable)
    (env : ReceiveEnv) (datagram : Sent Datagram) :
    (c.receiveDatagram env datagram).Accountable := by
  unfold Conn.receiveDatagram
  extract_lets header
  split
  · exact haccountable
  split
  · exact haccountable
  next track hbound =>
  split
  · exact haccountable.keeps (keepsLedger_protocolClose c _)
      (frame_keepsDelivered.protocolClose c _)
  next hreliable =>
  split
  · exact haccountable
  split
  · exact haccountable
  extract_lets observed
  have hdatagram : (trackProfile track).reliable = false := by simpa using hreliable
  have hkept : KeepsLedger c observed ∧ KeepsDelivered c observed := by
    simp only [observed]
    split
    · obtain ⟨hwindows, hlast⟩ := ObjectGapState.sameWindows_observe (c.objectGap header.trackAlias)
        header.groupId header.objectId
      exact ⟨keepsLedger_setObjectGap hwindows hlast,
        keeps_setObjectGap (ObjectGapState.sameHistory_observe _ _ _)⟩
    · exact ⟨.refl c, .refl c⟩
  have hobserved := haccountable.keeps hkept.1 hkept.2
  have hlater : observed.receiveSubscriptions.findByAlias header.trackAlias = some track := by
    rw [hkept.2.findByAlias]
    exact hbound
  split
  · next slot assembler hfound =>
      obtain ⟨halias, _, _⟩ := findAssembler_eq_some hfound
      split
      · exact hobserved
      · exact hobserved.assemble (by rw [halias]; exact hlater) hdatagram env slot datagram
  · have hopen := keepsLedger_openAssembler observed env header
    have hopen' := keeps_openAssembler observed env header
    split
    · next hfailed =>
        rw [hfailed] at hopen hopen'
        exact hobserved.keeps hopen hopen'
    · next slot assembler hopened =>
        rw [hopened] at hopen hopen'
        obtain rfl := openAssembler_eq_some hopened
        refine (hobserved.keeps hopen hopen').assemble ?_ hdatagram env slot datagram
        rw [hopen'.findByAlias]
        exact hlater

/-! ### Runs -/

/-- The connection reads the frames of its control stream. -/
def readsControl (c : Conn) : Bool := c.closed.isNone && c.helloReceived && c.authenticated

/-- The recovery frame in the operation is answered soundly. -/
def AcksWhatArrived (c : Conn) (op : ReceiveOp) : Prop :=
  match op with
  | .trackCheckpoint checkpoint =>
      c.readsControl = true → c.checkpointCapable = true →
      (c.recoveryTrack checkpoint.trackAlias).isSome = true → c.AnswersSoundly checkpoint
  | .trackEnd finish =>
      c.readsControl = true → (c.recoveryTrack finish.trackAlias).isSome = true →
      c.EndsSoundly finish
  | _ => True

instance (c : Conn) (op : ReceiveOp) : Decidable (c.AcksWhatArrived op) := by
  unfold AcksWhatArrived
  split <;> infer_instance

theorem accountable_receive (limits : TransportLimits) {c : Conn}
    (haccountable : c.Accountable) (op : ReceiveOp) (hsound : c.AcksWhatArrived op) :
    (receive limits c op).Accountable := by
  cases op with
  | hello hello =>
      exact haccountable.keeps (keepsLedger_receiveHello c limits hello)
        (keeps_receiveHello c limits hello)
  | respondAuth success =>
      exact haccountable.keeps (keepsLedger_respondAuth c success) (keeps_respondAuth c success)
  | subscribe track =>
      have hcalls := resubscribes_subscribeConnection c track
      exact .of_ledger (Ledger.resubscribes haccountable hcalls) hcalls.rebinds.deliveries
  | unsubscribe track =>
      have hcalls := resubscribes_unsubscribeConnection c track
      exact .of_ledger (Ledger.resubscribes haccountable hcalls) hcalls.rebinds.deliveries
  | datagram env datagram => exact haccountable.receiveDatagram env datagram
  | trackObject stream object =>
      exact haccountable.keeps (keepsLedger_receiveTrackObject c stream object)
        (keeps_receiveTrackObject c stream object)
  | trackCheckpoint checkpoint =>
      refine haccountable.receiveRecoveryFrame (·.receiveTrackCheckpoint checkpoint)
        (frame_keepsDelivered.receiveTrackCheckpoint c checkpoint) fun hopen hhello => ?_
      exact Ledger.receiveTrackCheckpoint haccountable fun hauthenticated =>
        hsound (by simp [readsControl, hopen, hhello, hauthenticated])
  | trackEnd finish =>
      refine haccountable.receiveRecoveryFrame (·.receiveTrackEnd finish)
        (frame_keepsDelivered.receiveTrackEnd c finish) fun hopen hhello => ?_
      exact Ledger.receiveTrackEnd haccountable fun hauthenticated =>
        hsound (by simp [readsControl, hopen, hhello, hauthenticated])
  | expire slot =>
      exact haccountable.keeps (keepsLedger_expireAssembler c slot)
        (keeps_expireAssembler c slot)
  | flushAcks =>
      exact .of_ledger (Ledger.flushRecoveryAcks haccountable)
        (frame_keepsDelivered.answers.flushRecoveryAcks c).deliveries
  | sendNack request withheld =>
      exact haccountable.keeps (keepsLedger_sendNack c request withheld)
        (frame_keepsDelivered.answers.sendNack c request withheld)
  | admissions admissions =>
      exact haccountable.keeps (.of_untouched rfl rfl fun _ => rfl) (.of_untouched rfl rfl rfl)
  | close code reason =>
      exact haccountable.keeps (keepsLedger_quiclyClose c code reason)
        (frame_keepsDelivered.quiclyClose c code reason)

theorem Accountable.delivered_of_ack {c : Conn} (haccountable : c.Accountable)
    {frame : Sent ControlFrame} (hframe : frame ∈ c.control)
    {ack : TrackCheckpointAck} (hack : frame.message = .trackCheckpointAck ack)
    {accepted : Sent (TrackAlias × RecoveryWindow)} (haccepted : accepted ∈ c.acceptedWindows)
    (hgeneration : accepted.generation = frame.generation)
    (hgroup : accepted.message.2.groupId = ack.groupId)
    (hreached : accepted.message.2.firstObjectId ≤ ack.finalObjectId) :
    ∀ objectId, accepted.message.2.covers objectId →
      c.handedOut ⟨frame.generation, ack.groupId, objectId⟩ := by
  have hsent : (⟨ack.groupId, ack.finalObjectId⟩ : Watermark) ∈ c.acksIn frame.generation := by
    refine List.mem_filterMap.mpr ⟨frame, List.mem_filter.mpr ⟨hframe, by simp⟩, ?_⟩
    simp [Sent.checkpointAck, hack]
  have hwindow : accepted.message.2 ∈ c.acceptedIn frame.generation :=
    List.mem_map.mpr ⟨accepted, List.mem_filter.mpr ⟨haccepted, by simpa using hgeneration⟩, rfl⟩
  have hdelivered := haccountable.sound frame.generation _ hsent _ hwindow hgroup hreached
  rw [← hgroup]
  exact hdelivered

/-- In a run that answers its recovery frames soundly, a window that an ACK reaches has
been delivered whole. -/
theorem run_acks_delivered (id : Nat) (limits : TransportLimits) {ack : TrackCheckpointAck}
    (hsound : Machine.Along (receive limits) AcksWhatArrived (init id limits) ops)
    {frame : Sent ControlFrame}
    (hframe : frame ∈ (receiveAll limits (init id limits) ops).control)
    (hack : frame.message = .trackCheckpointAck ack)
    {accepted : Sent (TrackAlias × RecoveryWindow)}
    (haccepted : accepted ∈ (receiveAll limits (init id limits) ops).acceptedWindows)
    (hgeneration : accepted.generation = frame.generation)
    (hgroup : accepted.message.2.groupId = ack.groupId)
    (hreached : accepted.message.2.firstObjectId ≤ ack.finalObjectId) :
    ∀ objectId, accepted.message.2.covers objectId →
      (receiveAll limits (init id limits) ops).handedOut
        ⟨frame.generation, ack.groupId, objectId⟩ := by
  have hrun : (receiveAll limits (init id limits) ops).Accountable :=
    Machine.invariant_run (fun _ op hinv hok => accountable_receive limits hinv op hok)
      (ledger_init _ id limits) hsound
  exact hrun.delivered_of_ack hframe hack haccepted hgeneration hgroup hreached

def checkpointOf (groupId firstObjectId finalObjectId : Nat) (baseline : Bool) :
    TrackCheckpoint where
  trackAlias := 8
  groupId := groupId
  firstObjectId := firstObjectId
  finalObjectId := finalObjectId
  baseline := baseline

def ackOf (groupId finalObjectId : Nat) : Sent ControlFrame :=
  ⟨feedTrack, 1, .trackCheckpointAck
    { trackAlias := 8, groupId := groupId, finalObjectId := finalObjectId }⟩

/-- The object arrives, then the window that announces it. -/
def announcedRun : List ReceiveOp :=
  subscribing defaultLimits feedTrack ++
    [.datagram quietReceive (singleSymbol feedTrack 8 0 0 [7]),
      .trackCheckpoint (checkpointOf 0 0 0 false)]

theorem announced_acked_delivered :
    ackOf 0 0 ∈ (receiveAll defaultLimits (init 0 defaultLimits) announcedRun).control ∧
    (receiveAll defaultLimits (init 0 defaultLimits) announcedRun).handedOut ⟨1, 0, 0⟩ := by
  have hack : ackOf 0 0 ∈ (receiveAll defaultLimits (init 0 defaultLimits)
      announcedRun).control := by decide +kernel
  have haccepted : (⟨feedTrack, 1, (8, ⟨0, 0, 0, 0⟩)⟩ : Sent (TrackAlias × RecoveryWindow)) ∈
      (receiveAll defaultLimits (init 0 defaultLimits) announcedRun).acceptedWindows := by
    decide +kernel
  exact ⟨hack, run_acks_delivered 0 defaultLimits (by decide +kernel) hack rfl haccepted rfl rfl
    (Nat.le_refl 0) 0 ⟨Nat.le_refl 0, Nat.le_refl 0⟩⟩

/-- A baseline follows the window that the lost object is missing from. -/
def baselineRun : List ReceiveOp :=
  subscribing defaultLimits feedTrack ++
    [.trackCheckpoint (checkpointOf 0 0 0 false), .trackCheckpoint (checkpointOf 0 0 0 true)]

/-- The missing object is acknowledged. -/
theorem baseline_acks_missing :
    ackOf 0 0 ∈ (receiveAll defaultLimits (init 0 defaultLimits) baselineRun).control ∧
    (⟨feedTrack, 1, (8, ⟨0, 0, 0, 1⟩)⟩ : Sent (TrackAlias × RecoveryWindow)) ∈
      (receiveAll defaultLimits (init 0 defaultLimits) baselineRun).acceptedWindows ∧
    ¬ (receiveAll defaultLimits (init 0 defaultLimits) baselineRun).handedOut ⟨1, 0, 0⟩ := by
  decide +kernel

end Conn

end Qlinq
