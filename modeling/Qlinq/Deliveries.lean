import Qlinq.ReceiveFrame

namespace Qlinq

/-! Which objects the datagrams of a connection deliver, and what the completion
ring and the delivered history remember of them. -/

structure ObjectIdentity where
  generation : Nat
  groupId : Nat
  objectId : Nat
  deriving DecidableEq, Repr

def CompletedObject.identity (completed : CompletedObject) : ObjectIdentity where
  generation := completed.generation
  groupId := completed.groupId
  objectId := completed.objectId

/-- The object a datagram track handed to the application. -/
def Event.delivery : Event → Option (TrackId × ObjectIdentity)
  | .object track generation groupId objectId _ _ =>
      if (trackProfile track).reliable then
        none
      else
        some (track, ⟨generation, groupId, objectId⟩)
  | _ => none

namespace ObjectGapState

theorem SameHistory.mark (hsame : SameHistory left right) (objectId : Nat) :
    SameHistory (left.markObjectDelivered objectId) (right.markObjectDelivered objectId) := by
  unfold markObjectDelivered
  rw [hsame.largest, hsame.mask]
  split
  · exact ⟨rfl, rfl⟩
  split
  · exact ⟨rfl, rfl⟩
  split
  · exact ⟨rfl, rfl⟩
  · exact hsame

end ObjectGapState

namespace Conn

/-- Objects delivered by datagrams, oldest first. -/
def deliveries (c : Conn) : List (TrackId × ObjectIdentity) :=
  c.events.filterMap Event.delivery

theorem deliveries_emit (c : Conn) (event : Event) :
    (c.emit event).deliveries = c.deliveries ++ event.delivery.toList := by
  cases hevent : event.delivery <;> simp [deliveries, emit, hevent]

/-! ### Steps that deliver nothing -/

/-- The step keeps bindings and generations, what was delivered and what is
remembered of it. -/
structure KeepsDelivered (c c' : Conn) : Prop where
  findByAlias : ∀ a,
    c'.receiveSubscriptions.findByAlias a = c.receiveSubscriptions.findByAlias a
  generation : ∀ a, c'.receiveGeneration a = c.receiveGeneration a
  nextGeneration :
    c'.receiveSubscriptions.nextGeneration = c.receiveSubscriptions.nextGeneration
  history : ∀ a, (c.objectGap a).SameHistory (c'.objectGap a)
  completedObjects : c'.completedObjects = c.completedObjects
  deliveries : c'.deliveries = c.deliveries

namespace KeepsDelivered

variable {c c' : Conn}

theorem refl (c : Conn) : KeepsDelivered c c :=
  ⟨fun _ => rfl, fun _ => rfl, rfl, fun _ => .refl _, rfl, rfl⟩

theorem trans (hfirst : KeepsDelivered c c') (hsecond : KeepsDelivered c' c'') :
    KeepsDelivered c c'' where
  findByAlias a := (hsecond.findByAlias a).trans (hfirst.findByAlias a)
  generation a := (hsecond.generation a).trans (hfirst.generation a)
  nextGeneration := hsecond.nextGeneration.trans hfirst.nextGeneration
  history a := (hfirst.history a).trans (hsecond.history a)
  completedObjects := hsecond.completedObjects.trans hfirst.completedObjects
  deliveries := hsecond.deliveries.trans hfirst.deliveries

/-- A step that leaves table, ring and events alone. -/
theorem of_untouched (htable : c'.receiveSubscriptions = c.receiveSubscriptions)
    (hring : c'.completedObjects = c.completedObjects) (hevents : c'.events = c.events) :
    KeepsDelivered c c' where
  findByAlias a := by rw [htable]
  generation a := by simp only [receiveGeneration, htable]
  nextGeneration := by rw [htable]
  history a := by simp only [objectGap, htable]; exact .refl _
  completedObjects := hring
  deliveries := by simp only [Conn.deliveries, hevents]

end KeepsDelivered

theorem objectGap_setObjectGap (c : Conn) (a b : TrackAlias) (gap : ObjectGapState) :
    (c.setObjectGap a gap).objectGap b =
      if b = a ∧ (c.receiveSubscriptions.getState a).isSome then gap else c.objectGap b := by
  simp only [objectGap, setObjectGap, SubscriptionTable.getState_modifyState]
  by_cases hb : b = a
  · subst hb
    cases c.receiveSubscriptions.getState b <;> simp
  · simp [hb]

theorem receiveGeneration_setObjectGap (c : Conn) (a b : TrackAlias)
    (gap : ObjectGapState) :
    (c.setObjectGap a gap).receiveGeneration b = c.receiveGeneration b := by
  simp only [receiveGeneration, setObjectGap, SubscriptionTable.getState_modifyState]
  by_cases hb : b = a
  · subst hb
    cases c.receiveSubscriptions.getState b <;> simp
  · simp [hb]

theorem keeps_setObjectGap {c : Conn} (hsame : (c.objectGap a).SameHistory gap) :
    KeepsDelivered c (c.setObjectGap a gap) where
  findByAlias b := SubscriptionTable.findByAlias_modifyState _ _ _ _
  generation b := receiveGeneration_setObjectGap c a b gap
  nextGeneration := rfl
  history b := by
    rw [objectGap_setObjectGap]
    split
    · next hb =>
        rw [hb.1]
        exact hsame
    · exact .refl _
  completedObjects := rfl
  deliveries := rfl

theorem keeps_emit {c : Conn} (hsilent : event.delivery = none) :
    KeepsDelivered c (c.emit event) where
  findByAlias _ := rfl
  generation _ := rfl
  nextGeneration := rfl
  history _ := .refl _
  completedObjects := rfl
  deliveries := by simp [Conn.deliveries, emit, hsilent]

/-- Nothing that recovery writes delivers an object. -/
theorem frame_keepsDelivered : ReceiveFrame KeepsDelivered where
  refl := .refl
  trans := .trans
  closed _ _ := .of_untouched rfl rfl rfl
  drained _ _ := .of_untouched rfl rfl rfl
  written _ _ _ _ := .of_untouched rfl rfl rfl
  acceptedWindows _ _ := .of_untouched rfl rfl rfl
  assemblers _ _ := .of_untouched rfl rfl rfl
  objectGap _ _ _ hsettles := keeps_setObjectGap hsettles.history

theorem keeps_bindStream (c : Conn) (stream : Nat) (a : TrackAlias) :
    KeepsDelivered c (c.bindStream stream a) := by
  unfold bindStream
  split
  · exact .of_untouched rfl rfl rfl
  · exact .refl c

theorem keeps_receiveTrackObject (c : Conn) (stream : Nat) (object : Sent TrackObject) :
    KeepsDelivered c (c.receiveTrackObject stream object) := by
  unfold receiveTrackObject parseTrackObject
  split
  · exact frame_keepsDelivered.quiclyClose c _ _
  split
  · exact frame_keepsDelivered.quiclyClose c _ _
  simp only
  split
  · exact frame_keepsDelivered.protocolClose c _
  have hbind := keeps_bindStream c stream object.message.trackAlias
  split
  · exact hbind
  next track _ =>
  split
  · exact hbind.trans (frame_keepsDelivered.protocolClose _ _)
  · next hreliable =>
      have hsilent : (trackProfile track).reliable = true := by simpa using hreliable
      exact hbind.trans (keeps_emit (by simp [Event.delivery, hsilent]))

theorem keeps_expireAssembler (c : Conn) (slot : Nat) :
    KeepsDelivered c (c.expireAssembler slot) := by
  unfold expireAssembler
  split
  · exact .refl c
  split
  · exact .refl c
  simp only
  split
  · exact .of_untouched rfl rfl rfl
  · exact (keeps_emit rfl).trans (.of_untouched rfl rfl rfl)

theorem keeps_receiveHello (c : Conn) (limits : TransportLimits) (hello : Hello) :
    KeepsDelivered c (c.receiveHello limits hello) := by
  unfold receiveHello
  split
  · exact .refl c
  split
  · exact frame_keepsDelivered.protocolClose c _
  · exact .of_untouched rfl rfl rfl

theorem keeps_respondAuth (c : Conn) (success : Bool) :
    KeepsDelivered c (c.respondAuth success) := by
  unfold respondAuth
  split
  · exact .refl c
  split
  · exact .of_untouched rfl rfl rfl
  · exact frame_keepsDelivered.quiclyClose c _ _

/-! ### Datagrams -/

/-- The step delivers one object of the track bound to the alias. -/
structure Delivers (c c' : Conn) (track : TrackId) (a : TrackAlias)
    (groupId objectId : Nat) : Prop where
  findByAlias : ∀ b,
    c'.receiveSubscriptions.findByAlias b = c.receiveSubscriptions.findByAlias b
  generation : ∀ b, c'.receiveGeneration b = c.receiveGeneration b
  nextGeneration :
    c'.receiveSubscriptions.nextGeneration = c.receiveSubscriptions.nextGeneration
  unmarked : ∀ b, ¬ (track.isRatelessData ∧ b = a) →
    (c.objectGap b).SameHistory (c'.objectGap b)
  marked : track.isRatelessData →
    ((c.objectGap a).markObjectDelivered objectId).SameHistory (c'.objectGap a)
  completedObjects : c'.completedObjects =
    ({ generation := c.receiveGeneration a
       trackAlias := a
       groupId := groupId
       objectId := objectId } :: c.completedObjects).take completedObjectsLimit
  deliveries : c'.deliveries =
    c.deliveries ++ [(track, ⟨c.receiveGeneration a, groupId, objectId⟩)]

theorem Delivers.after {c c' c'' : Conn} (hkept : KeepsDelivered c c')
    (hdelivers : Delivers c' c'' track a groupId objectId) :
    Delivers c c'' track a groupId objectId where
  findByAlias b := (hdelivers.findByAlias b).trans (hkept.findByAlias b)
  generation b := (hdelivers.generation b).trans (hkept.generation b)
  nextGeneration := hdelivers.nextGeneration.trans hkept.nextGeneration
  unmarked b hother := (hkept.history b).trans (hdelivers.unmarked b hother)
  marked hrateless := ((hkept.history a).mark objectId).trans (hdelivers.marked hrateless)
  completedObjects := by
    rw [hdelivers.completedObjects, hkept.completedObjects, hkept.generation]
  deliveries := by rw [hdelivers.deliveries, hkept.deliveries, hkept.generation]

theorem delivers_completeObject {c : Conn}
    (hbound : c.receiveSubscriptions.findByAlias assembler.trackAlias = some track)
    (hdatagram : (trackProfile track).reliable = false) (slot : Nat)
    (blocks : List Bytes) :
    Delivers c (c.completeObject slot track assembler blocks) track assembler.trackAlias
      assembler.groupId assembler.objectId := by
  have hstate : (c.receiveSubscriptions.getState assembler.trackAlias).isSome :=
    SubscriptionTable.getState_isSome_iff.mpr ⟨track, hbound⟩
  have hevent : ∀ data sources, Event.delivery (.object track
      (c.receiveGeneration assembler.trackAlias) assembler.groupId assembler.objectId
      data sources) =
      some (track, ⟨c.receiveGeneration assembler.trackAlias, assembler.groupId,
        assembler.objectId⟩) := by
    simp [Event.delivery, hdatagram]
  unfold completeObject
  extract_lets a generation completed ringed marked
  have hmarks : (∀ b, marked.receiveSubscriptions.findByAlias b =
        c.receiveSubscriptions.findByAlias b) ∧
      (∀ b, marked.receiveGeneration b = c.receiveGeneration b) ∧
      marked.receiveSubscriptions.nextGeneration = c.receiveSubscriptions.nextGeneration ∧
      (∀ b, ¬ (track.isRatelessData ∧ b = a) →
        (c.objectGap b).SameHistory (marked.objectGap b)) ∧
      (track.isRatelessData → ((c.objectGap a).markObjectDelivered assembler.objectId
        ).SameHistory (marked.objectGap a)) ∧
      marked.completedObjects = ringed.completedObjects ∧
      marked.deliveries = c.deliveries := by
    by_cases hrateless : track.isRatelessData = true
    · have hmark := objectGap_setObjectGap ringed a
      have hkept := frame_keepsDelivered.answers.recoveryMarkDelivered
        (ringed.setObjectGap a ((ringed.objectGap a).markObjectDelivered assembler.objectId))
        a assembler.groupId assembler.objectId
      have hmarked : marked = (ringed.setObjectGap a
          ((ringed.objectGap a).markObjectDelivered assembler.objectId)
          ).recoveryMarkDelivered a assembler.groupId assembler.objectId := if_pos hrateless
      rw [← hmarked] at hkept
      refine ⟨fun b => hkept.findByAlias b, fun b => ?_, hkept.nextGeneration,
        fun b hother => ?_, fun _ => ?_, hkept.completedObjects, hkept.deliveries⟩
      · exact (hkept.generation b).trans (receiveGeneration_setObjectGap _ _ _ _)
      · have hhistory := hkept.history b
        rw [hmark b, if_neg fun h => hother ⟨hrateless, h.1⟩] at hhistory
        exact hhistory
      · have hhistory := hkept.history a
        rw [hmark a, if_pos ⟨rfl, hstate⟩] at hhistory
        exact hhistory
    · have hmarked : marked = ringed := if_neg hrateless
      rw [hmarked]
      exact ⟨fun _ => rfl, fun _ => rfl, rfl, fun _ _ => .refl _,
        fun h => absurd h hrateless, rfl, rfl⟩
  obtain ⟨hbindings, hgenerations, hnext, hunmarked, hmark, hring, hsilent⟩ := hmarks
  refine ⟨hbindings, hgenerations, hnext, hunmarked, hmark, hring, ?_⟩
  change (marked.emit _).deliveries = _
  rw [deliveries_emit, hevent, hsilent]
  rfl

theorem delivers_assemble {c : Conn}
    (hbound : c.receiveSubscriptions.findByAlias assembler.trackAlias = some track)
    (hdatagram : (trackProfile track).reliable = false) (env : ReceiveEnv) (slot : Nat)
    (datagram : Sent Datagram) :
    KeepsDelivered c (c.assemble env track slot assembler datagram) ∨
      Delivers c (c.assemble env track slot assembler datagram) track
        assembler.trackAlias assembler.groupId assembler.objectId := by
  unfold assemble
  extract_lets header grown accepted stored
  have hsame : accepted.trackAlias = assembler.trackAlias ∧
      accepted.groupId = assembler.groupId ∧ accepted.objectId = assembler.objectId := by
    simp only [accepted, acceptSymbol]
    split <;> exact ⟨rfl, rfl, rfl⟩
  have hstored : KeepsDelivered c stored := .of_untouched rfl rfl rfl
  split
  · exact Or.inl (.refl c)
  split
  · exact Or.inl hstored
  next blocks _ =>
  split
  · exact Or.inl hstored
  · right
    obtain ⟨halias, hgroup, hobject⟩ := hsame
    have hdelivers := delivers_completeObject (halias ▸ hbound : stored.receiveSubscriptions.findByAlias
      accepted.trackAlias = some track) hdatagram slot blocks
    rw [halias, hgroup, hobject] at hdelivers
    exact hdelivers.after hstored

theorem keeps_openAssembler (c : Conn) (env : ReceiveEnv) (header : FecHeader) :
    KeepsDelivered c (c.openAssembler env header).1 := by
  unfold openAssembler
  extract_lets selected lossy advanced
  have hlossy : KeepsDelivered c lossy := by
    simp only [lossy]
    split
    · exact .refl c
    split
    · exact .refl c
    · exact keeps_emit rfl
  split <;> exact hlossy.trans (.of_untouched rfl rfl rfl)

theorem openAssembler_eq_some {c : Conn}
    (hopened : c.openAssembler env header = (c', some (slot, assembler))) :
    assembler = freshAssembler header env.now := by
  unfold openAssembler at hopened
  extract_lets at hopened
  split at hopened
  · simp at hopened
  · simp only [Prod.mk.injEq, Option.some.injEq] at hopened
    exact hopened.2.2.symm

theorem findAssembler_eq_some {c : Conn}
    (hfound : c.findAssembler header = some (slot, assembler)) :
    assembler.trackAlias = header.trackAlias ∧ assembler.groupId = header.groupId ∧
      assembler.objectId = header.objectId := by
  obtain ⟨⟨found, index⟩, _, hsome⟩ := List.exists_of_findSome?_eq_some hfound
  obtain ⟨other, hother, heq⟩ := Option.map_eq_some_iff.mp hsome
  obtain ⟨_, rfl⟩ := Prod.mk.inj heq
  have hmatches := (Option.filter_eq_some_iff.mp hother).2
  simpa [assemblerMatches, and_assoc] using hmatches

/-- What one datagram can do: nothing to what was delivered, or deliver the very
object its envelope names, which nothing recalled. -/
theorem receiveDatagram_cases (c : Conn) (env : ReceiveEnv) (datagram : Sent Datagram) :
    KeepsDelivered c (c.receiveDatagram env datagram) ∨
      ∃ track, c.receiveSubscriptions.findByAlias datagram.message.header.trackAlias =
          some track ∧
        (trackProfile track).reliable = false ∧
        c.duplicateObject track datagram.message.header = false ∧
        Delivers c (c.receiveDatagram env datagram) track
          datagram.message.header.trackAlias datagram.message.header.groupId
          datagram.message.header.objectId := by
  unfold receiveDatagram
  extract_lets header
  split
  · exact Or.inl (.refl c)
  split
  · exact Or.inl (.refl c)
  next track hbound =>
  split
  · exact Or.inl (frame_keepsDelivered.protocolClose c _)
  next hreliable =>
  split
  · exact Or.inl (.refl c)
  split
  · exact Or.inl (.refl c)
  next hduplicate =>
  extract_lets observed
  have hobserved : KeepsDelivered c observed := by
    simp only [observed]
    split
    · exact keeps_setObjectGap (ObjectGapState.sameHistory_observe _ _ _)
    · exact .refl c
  have hdatagram : (trackProfile track).reliable = false := by simpa using hreliable
  have hnew : c.duplicateObject track header = false := by simpa using hduplicate
  split
  · next slot assembler hfound =>
      obtain ⟨halias, hgroup, hobject⟩ := findAssembler_eq_some hfound
      split
      · exact Or.inl hobserved
      have hlater : observed.receiveSubscriptions.findByAlias assembler.trackAlias =
          some track := by rw [halias, hobserved.findByAlias]; exact hbound
      cases delivers_assemble hlater hdatagram env slot datagram with
      | inl hkept => exact Or.inl (hobserved.trans hkept)
      | inr hdelivers =>
          rw [halias, hgroup, hobject] at hdelivers
          exact Or.inr ⟨track, hbound, hdatagram, hnew, hdelivers.after hobserved⟩
  · have hopen := keeps_openAssembler observed env header
    split
    · next hfailed =>
        rw [hfailed] at hopen
        exact Or.inl (hobserved.trans hopen)
    · next opened slot assembler hopened =>
        rw [hopened] at hopen
        have hkeeps := hobserved.trans hopen
        obtain rfl := openAssembler_eq_some hopened
        have hlater : opened.receiveSubscriptions.findByAlias
            (freshAssembler header env.now).trackAlias = some track := by
          rw [hkeeps.findByAlias]
          exact hbound
        cases delivers_assemble hlater hdatagram env slot datagram with
        | inl hkept => exact Or.inl (hkeeps.trans hkept)
        | inr hdelivers =>
            exact Or.inr ⟨track, hbound, hdatagram, hnew, hdelivers.after hkeeps⟩

end Conn

end Qlinq
