import Qlinq.Subscribing

namespace Qlinq

/-! Duplicate suppression: what a connection drops as already delivered, and how
often it can deliver one object. -/

namespace Conn

/-! ### Subscription calls -/

/-- Every binding is an old one with its history, or the single fresh one. -/
structure Rebinds (c c' : Conn) : Prop where
  nextGeneration :
    c.receiveSubscriptions.nextGeneration ≤ c'.receiveSubscriptions.nextGeneration
  bindings : ∃ fresh, ∀ a track, c'.receiveSubscriptions.findByAlias a = some track →
    (c.receiveSubscriptions.findByAlias a = some track ∧
        c'.receiveGeneration a = c.receiveGeneration a ∧
        (c.objectGap a).SameHistory (c'.objectGap a)) ∨
      (a = fresh ∧
        c.receiveSubscriptions.nextGeneration < c'.receiveSubscriptions.nextGeneration ∧
        c'.receiveGeneration a = c.receiveSubscriptions.nextGeneration + 1 ∧
        ObjectGapState.SameHistory {} (c'.objectGap a))
  completedObjects : c'.completedObjects = c.completedObjects
  deliveries : c'.deliveries = c.deliveries

theorem KeepsDelivered.rebinds (hkept : KeepsDelivered c c') : Rebinds c c' where
  nextGeneration := le_of_eq hkept.nextGeneration.symm
  bindings := by
    refine ⟨0, fun a track hbound => Or.inl ⟨?_, hkept.generation a, hkept.history a⟩⟩
    rw [← hkept.findByAlias]
    exact hbound
  completedObjects := hkept.completedObjects
  deliveries := hkept.deliveries

theorem Resubscribes.rebinds {c c' : Conn} (hcalls : Resubscribes c c') : Rebinds c c' where
  nextGeneration := hcalls.nextGeneration
  bindings := by
    obtain ⟨fresh, hbindings⟩ := hcalls.bindings
    refine ⟨fresh, fun a track hbound => ?_⟩
    cases hbindings a track hbound with
    | inl hold =>
        obtain ⟨hbound, hgeneration, hgap⟩ := hold
        rw [hgap]
        exact Or.inl ⟨hbound, hgeneration, .refl _⟩
    | inr hnew =>
        obtain ⟨hfresh, hnext, hgeneration, hgap⟩ := hnew
        rw [hgap]
        exact Or.inr ⟨hfresh, hnext, hgeneration, .refl _⟩
  completedObjects := hcalls.completedObjects
  deliveries := by simp only [deliveries, hcalls.events]

/-! ### What is remembered of the deliveries -/

/-- Objects delivered under a subscription generation. -/
def deliveredIds (c : Conn) (generation objectId : Nat) : Prop :=
  ∃ delivered ∈ c.deliveries,
    delivered.2.generation = generation ∧ delivered.2.objectId = objectId

/-- The ring holds the newest deliveries, and the history of every rateless DATA
subscription represents what its generation delivered. -/
structure Recalls (c : Conn) : Prop where
  ring : c.completedObjects.map CompletedObject.identity =
    (c.deliveries.map Prod.snd).reverse.take completedObjectsLimit
  aliases : ∀ completed ∈ c.completedObjects, ∀ a track,
    c.receiveSubscriptions.findByAlias a = some track →
    completed.generation = c.receiveGeneration a → completed.trackAlias = a
  generations : ∀ delivered ∈ c.deliveries,
    delivered.2.generation ≤ c.receiveSubscriptions.nextGeneration
  current : ∀ a track, c.receiveSubscriptions.findByAlias a = some track →
    c.receiveGeneration a ≤ c.receiveSubscriptions.nextGeneration
  distinct : ∀ a b track other, c.receiveSubscriptions.findByAlias a = some track →
    c.receiveSubscriptions.findByAlias b = some other →
    c.receiveGeneration a = c.receiveGeneration b → a = b
  history : ∀ a track, c.receiveSubscriptions.findByAlias a = some track →
    track.isRatelessData → (c.objectGap a).Represents (c.deliveredIds (c.receiveGeneration a))

theorem recalls_init (id : Nat) (limits : TransportLimits) : (init id limits).Recalls where
  ring := rfl
  aliases := by simp [init]
  generations := by simp [init, deliveries]
  current := by simp [init, SubscriptionTable.init, SubscriptionTable.findByAlias, Keyed.lookup]
  distinct := by simp [init, SubscriptionTable.init, SubscriptionTable.findByAlias, Keyed.lookup]
  history := by simp [init, SubscriptionTable.init, SubscriptionTable.findByAlias, Keyed.lookup]

theorem Rebinds.recalls {c c' : Conn} (hrebinds : Rebinds c c') (hrecalls : c.Recalls) :
    c'.Recalls := by
  obtain ⟨fresh, hbindings⟩ := hrebinds.bindings
  have hids : c'.deliveredIds = c.deliveredIds := by
    unfold deliveredIds
    rw [hrebinds.deliveries]
  have hnext := hrebinds.nextGeneration
  constructor
  · rw [hrebinds.completedObjects, hrebinds.deliveries]
    exact hrecalls.ring
  · intro completed hmem a track hbound hgeneration
    rw [hrebinds.completedObjects] at hmem
    cases hbindings a track hbound with
    | inl hold =>
        rw [hold.2.1] at hgeneration
        exact hrecalls.aliases completed hmem a track hold.1 hgeneration
    | inr hnew =>
        have hidentity : completed.identity ∈ c.deliveries.map Prod.snd := by
          have hring := List.mem_map_of_mem (f := CompletedObject.identity) hmem
          rw [hrecalls.ring] at hring
          exact List.mem_reverse.mp (List.mem_of_mem_take hring)
        obtain ⟨delivered, hdelivered, heq⟩ := List.mem_map.mp hidentity
        have hle := hrecalls.generations delivered hdelivered
        rw [heq] at hle
        have : completed.identity.generation = completed.generation := rfl
        omega
  · intro delivered hmem
    rw [hrebinds.deliveries] at hmem
    have := hrecalls.generations delivered hmem
    omega
  · intro a track hbound
    cases hbindings a track hbound with
    | inl hold =>
        have := hrecalls.current a track hold.1
        omega
    | inr hnew => omega
  · intro a b track other hleft hright hsame
    cases hbindings a track hleft with
    | inl hold =>
        cases hbindings b other hright with
        | inl hother =>
            rw [hold.2.1, hother.2.1] at hsame
            exact hrecalls.distinct a b track other hold.1 hother.1 hsame
        | inr hnew =>
            have := hrecalls.current a track hold.1
            omega
    | inr hnew =>
        cases hbindings b other hright with
        | inl hother =>
            have := hrecalls.current b other hother.1
            omega
        | inr hother => exact hnew.1.trans hother.1.symm
  · intro a track hbound hrateless
    rw [hids]
    cases hbindings a track hbound with
    | inl hold =>
        rw [hold.2.1]
        exact hold.2.2.represents (hrecalls.history a track hold.1 hrateless)
    | inr hnew =>
        have hempty : ∀ id, False ↔ c.deliveredIds (c'.receiveGeneration a) id := by
          intro id
          refine ⟨False.elim, ?_⟩
          intro ⟨delivered, hmem, hgeneration, _⟩
          have := hrecalls.generations delivered hmem
          omega
        exact ObjectGapState.represents_congr hempty
          (hnew.2.2.2.represents ObjectGapState.represents_initial)

theorem Delivers.deliveredIds {c c' : Conn} (hdelivers : Delivers c c' track a groupId objectId)
    (generation id : Nat) :
    c'.deliveredIds generation id ↔ c.deliveredIds generation id ∨
      (generation = c.receiveGeneration a ∧ id = objectId) := by
  unfold Conn.deliveredIds
  simp only [hdelivers.deliveries, List.mem_append, List.mem_singleton]
  constructor
  · intro ⟨delivered, hmem, hgeneration, hobject⟩
    cases hmem with
    | inl hmem => exact Or.inl ⟨delivered, hmem, hgeneration, hobject⟩
    | inr heq =>
        subst heq
        exact Or.inr ⟨hgeneration.symm, hobject.symm⟩
  · intro h
    cases h with
    | inl hold =>
        obtain ⟨delivered, hmem, hgeneration, hobject⟩ := hold
        exact ⟨delivered, Or.inl hmem, hgeneration, hobject⟩
    | inr hnew => exact ⟨_, Or.inr rfl, hnew.1.symm, hnew.2.symm⟩

theorem Delivers.recalls {c c' : Conn} (hdelivers : Delivers c c' track a groupId objectId)
    (hbound : c.receiveSubscriptions.findByAlias a = some track) (hrecalls : c.Recalls) :
    c'.Recalls := by
  constructor
  · rw [hdelivers.completedObjects, hdelivers.deliveries, List.map_take, List.map_cons,
      hrecalls.ring, List.map_append, List.reverse_append]
    simp [CompletedObject.identity, completedObjectsLimit, List.take_take]
  · intro completed hmem b other hother hgeneration
    rw [hdelivers.findByAlias] at hother
    rw [hdelivers.generation] at hgeneration
    rw [hdelivers.completedObjects] at hmem
    cases List.mem_cons.mp (List.mem_of_mem_take hmem) with
    | inl heq =>
        subst heq
        exact hrecalls.distinct a b track other hbound hother hgeneration
    | inr hold => exact hrecalls.aliases completed hold b other hother hgeneration
  · intro delivered hmem
    rw [hdelivers.nextGeneration]
    rw [hdelivers.deliveries] at hmem
    cases List.mem_append.mp hmem with
    | inl hold => exact hrecalls.generations delivered hold
    | inr hnew =>
        rw [List.mem_singleton.mp hnew]
        exact hrecalls.current a track hbound
  · intro b other hother
    rw [hdelivers.findByAlias] at hother
    rw [hdelivers.generation, hdelivers.nextGeneration]
    exact hrecalls.current b other hother
  · intro b d left right hleft hright hsame
    rw [hdelivers.findByAlias] at hleft hright
    rw [hdelivers.generation, hdelivers.generation] at hsame
    exact hrecalls.distinct b d left right hleft hright hsame
  · intro b other hother hrateless
    rw [hdelivers.findByAlias] at hother
    rw [hdelivers.generation]
    have hold := hrecalls.history b other hother hrateless
    by_cases hb : b = a
    · subst hb
      obtain rfl : track = other := Option.some.inj (hbound.symm.trans hother)
      refine ObjectGapState.represents_congr (fun id => ?_)
        ((hdelivers.marked hrateless).represents
          (ObjectGapState.represents_mark hold objectId))
      rw [hdelivers.deliveredIds]
      simp
    · refine ObjectGapState.represents_congr (fun id => ?_)
        ((hdelivers.unmarked b fun h => hb h.2).represents hold)
      rw [hdelivers.deliveredIds]
      have hne : c.receiveGeneration b ≠ c.receiveGeneration a := fun h =>
        hb (hrecalls.distinct b a other track hother hbound h)
      simp [hne]

/-- A step delivers nothing or, from one datagram, one object that nothing
recalled. -/
theorem receive_cases (limits : TransportLimits) (c : Conn) (op : ReceiveOp) :
    Rebinds c (receive limits c op) ∨
      ∃ env datagram track, op = .datagram env datagram ∧
        c.receiveSubscriptions.findByAlias datagram.message.header.trackAlias =
          some track ∧
        (trackProfile track).reliable = false ∧
        c.duplicateObject track datagram.message.header = false ∧
        Delivers c (receive limits c op) track datagram.message.header.trackAlias
          datagram.message.header.groupId datagram.message.header.objectId := by
  cases op with
  | hello hello => exact Or.inl (keeps_receiveHello c limits hello).rebinds
  | respondAuth success => exact Or.inl (keeps_respondAuth c success).rebinds
  | subscribe track =>
      exact Or.inl (resubscribes_subscribeConnection c track).rebinds
  | unsubscribe track =>
      exact Or.inl (resubscribes_unsubscribeConnection c track).rebinds
  | datagram env datagram =>
      cases receiveDatagram_cases c env datagram with
      | inl hkept => exact Or.inl hkept.rebinds
      | inr hdelivers =>
          obtain ⟨track, hbound, hdatagram, hnew, hdelivers⟩ := hdelivers
          exact Or.inr ⟨env, datagram, track, rfl, hbound, hdatagram, hnew, hdelivers⟩
  | trackObject stream object =>
      exact Or.inl (keeps_receiveTrackObject c stream object).rebinds
  | trackCheckpoint checkpoint =>
      have hkept : KeepsDelivered c (receive limits c (.trackCheckpoint checkpoint)) :=
        frame_keepsDelivered.receiveRecoveryFrame (·.receiveTrackCheckpoint checkpoint)
          (frame_keepsDelivered.receiveTrackCheckpoint c checkpoint)
      exact Or.inl hkept.rebinds
  | trackEnd finish =>
      have hkept : KeepsDelivered c (receive limits c (.trackEnd finish)) :=
        frame_keepsDelivered.receiveRecoveryFrame (·.receiveTrackEnd finish)
          (frame_keepsDelivered.receiveTrackEnd c finish)
      exact Or.inl hkept.rebinds
  | expire slot => exact Or.inl (keeps_expireAssembler c slot).rebinds
  | flushAcks => exact Or.inl (frame_keepsDelivered.answers.flushRecoveryAcks c).rebinds
  | sendNack request withheld =>
      exact Or.inl (frame_keepsDelivered.answers.sendNack c request withheld).rebinds
  | admissions admissions =>
      have hkept : KeepsDelivered c (receive limits c (.admissions admissions)) :=
        .of_untouched rfl rfl rfl
      exact Or.inl hkept.rebinds
  | close code reason =>
      exact Or.inl (frame_keepsDelivered.quiclyClose c code reason).rebinds

theorem recalls_receive (limits : TransportLimits) (hrecalls : c.Recalls)
    (op : ReceiveOp) : (receive limits c op).Recalls := by
  cases receive_cases limits c op with
  | inl hrebinds => exact hrebinds.recalls hrecalls
  | inr hdelivers =>
      obtain ⟨_, _, _, _, hbound, _, _, hdelivers⟩ := hdelivers
      exact hdelivers.recalls hbound hrecalls

/-! ### Suppressed symbols -/

/-- The symbol passes every check and is dropped as one of a completed object. -/
def suppresses (c : Conn) (datagram : Datagram) : Bool :=
  c.closed.isNone && c.authenticated &&
    match c.receiveSubscriptions.findByAlias datagram.header.trackAlias with
    | none => false
    | some track =>
        !(trackProfile track).reliable && c.datagramValid datagram &&
          c.duplicateObject track datagram.header

theorem suppresses_iff {c : Conn} {datagram : Datagram} :
    c.suppresses datagram = true ↔ c.closed = none ∧ c.authenticated = true ∧
      ∃ track, c.receiveSubscriptions.findByAlias datagram.header.trackAlias = some track ∧
        (trackProfile track).reliable = false ∧ c.datagramValid datagram = true ∧
        c.duplicateObject track datagram.header = true := by
  unfold suppresses
  cases c.receiveSubscriptions.findByAlias datagram.header.trackAlias <;>
    simp [and_assoc]

/-- A suppressed symbol changes nothing. -/
theorem receiveDatagram_of_suppresses {c : Conn} {datagram : Sent Datagram}
    (hsuppressed : c.suppresses datagram.message = true) (env : ReceiveEnv) :
    c.receiveDatagram env datagram = c := by
  obtain ⟨hopen, hauthenticated, track, hbound, hdatagram, hvalid, hduplicate⟩ :=
    suppresses_iff.mp hsuppressed
  simp [receiveDatagram, hopen, hauthenticated, hbound, hdatagram, hvalid, hduplicate]

/-- The object of the envelope was delivered under this subscription. -/
def deliveredBefore (c : Conn) (header : FecHeader) : Prop :=
  ∃ delivered ∈ c.deliveries, delivered.2 =
    ⟨c.receiveGeneration header.trackAlias, header.groupId, header.objectId⟩

/-- An object of this subscription and group that is newer by the whole history
was delivered. -/
def behindGroup (c : Conn) (header : FecHeader) : Prop :=
  ∃ delivered ∈ c.deliveries,
    delivered.2.generation = c.receiveGeneration header.trackAlias ∧
      delivered.2.groupId = header.groupId ∧
      header.objectId + recoveryHistoryObjects ≤ delivered.2.objectId

/-- Only a symbol of an object that was delivered, or that fell behind the
deliveries of its group, is dropped. -/
def SuppressesRightly (c : Conn) (datagram : Datagram) : Prop :=
  c.suppresses datagram → ∃ track,
    c.receiveSubscriptions.findByAlias datagram.header.trackAlias = some track ∧
      (c.deliveredBefore datagram.header ∨
        track.isRatelessData ∧ c.behindGroup datagram.header)

/-- The delivery has the object id of the envelope or one out of its reach. -/
def Shadows (identity : ObjectIdentity) (header : FecHeader) : Prop :=
  identity.objectId = header.objectId ∨
    header.objectId + recoveryHistoryObjects ≤ identity.objectId

/-- If a delivery of another group of the rateless DATA subscription shadows the
symbol, so does one of the symbol's own group. -/
def GroupsApart (c : Conn) (datagram : Datagram) : Prop :=
  ∀ track, c.receiveSubscriptions.findByAlias datagram.header.trackAlias = some track →
    c.closed = none → c.authenticated → (trackProfile track).reliable = false →
    c.datagramValid datagram → track.isRatelessData →
    ∀ delivered ∈ c.deliveries,
      delivered.2.generation = c.receiveGeneration datagram.header.trackAlias →
      Shadows delivered.2 datagram.header →
      ∃ own ∈ c.deliveries,
        own.2.generation = c.receiveGeneration datagram.header.trackAlias ∧
          own.2.groupId = datagram.header.groupId ∧ Shadows own.2 datagram.header

/-- A ring hit is a delivery of the very object. -/
theorem deliveredBefore_of_ring {c : Conn} (hrecalls : c.Recalls)
    (hhit : ∃ completed ∈ c.completedObjects,
      completed.generation = c.receiveGeneration header.trackAlias ∧
        completed.groupId = header.groupId ∧ completed.objectId = header.objectId) :
    c.deliveredBefore header := by
  obtain ⟨completed, hmem, hgeneration, hgroup, hobject⟩ := hhit
  have hring := List.mem_map_of_mem (f := CompletedObject.identity) hmem
  rw [hrecalls.ring] at hring
  obtain ⟨delivered, hdelivered, heq⟩ :=
    List.mem_map.mp (List.mem_reverse.mp (List.mem_of_mem_take hring))
  refine ⟨delivered, hdelivered, heq.trans ?_⟩
  rw [CompletedObject.identity, hgeneration, hgroup, hobject]

theorem duplicateObject_iff {c : Conn} {track : TrackId} {header : FecHeader} :
    c.duplicateObject track header = true ↔
      (∃ completed ∈ c.completedObjects,
        completed.trackAlias = header.trackAlias ∧
          completed.generation = c.receiveGeneration header.trackAlias ∧
          completed.groupId = header.groupId ∧ completed.objectId = header.objectId) ∨
      (track.isRatelessData = true ∧
        (c.objectGap header.trackAlias).objectWasDelivered header.objectId = true) := by
  simp [duplicateObject, and_assoc]

theorem suppressesRightly_iff {c : Conn} (hrecalls : c.Recalls) (datagram : Datagram) :
    c.SuppressesRightly datagram ↔ c.GroupsApart datagram := by
  constructor
  · intro hright track hbound hopen hauthenticated hdatagram hvalid hrateless
      delivered hmem hgeneration hshadows
    have hhistory := hrecalls.history _ track hbound hrateless
    have hwas : (c.objectGap datagram.header.trackAlias).objectWasDelivered
        datagram.header.objectId = true := by
      rw [ObjectGapState.objectWasDelivered_iff hhistory]
      cases hshadows with
      | inl hsame => exact Or.inl ⟨delivered, hmem, hgeneration, hsame⟩
      | inr hfar =>
          exact Or.inr ⟨_, ⟨delivered, hmem, hgeneration, rfl⟩, hfar⟩
    have hsuppressed : c.suppresses datagram = true :=
      suppresses_iff.mpr ⟨hopen, hauthenticated, track, hbound, hdatagram, hvalid,
        duplicateObject_iff.mpr (Or.inr ⟨hrateless, hwas⟩)⟩
    obtain ⟨_, _, hreason⟩ := hright hsuppressed
    cases hreason with
    | inl hbefore =>
        obtain ⟨own, hown, heq⟩ := hbefore
        exact ⟨own, hown, by rw [heq], by rw [heq], Or.inl (by rw [heq])⟩
    | inr hbehind =>
        obtain ⟨own, hown, hsame, hgroup, hfar⟩ := hbehind.2
        exact ⟨own, hown, hsame, hgroup, Or.inr hfar⟩
  · intro hapart hsuppressed
    obtain ⟨hopen, hauthenticated, track, hbound, hdatagram, hvalid, hduplicate⟩ :=
      suppresses_iff.mp hsuppressed
    refine ⟨track, hbound, ?_⟩
    cases duplicateObject_iff.mp hduplicate with
    | inl hring =>
        obtain ⟨completed, hmem, _, hidentity⟩ := hring
        exact Or.inl (deliveredBefore_of_ring hrecalls ⟨completed, hmem, hidentity⟩)
    | inr hold =>
        obtain ⟨hrateless, hwas⟩ := hold
        rw [ObjectGapState.objectWasDelivered_iff
          (hrecalls.history _ track hbound hrateless)] at hwas
        have hshadow : ∃ delivered ∈ c.deliveries,
            delivered.2.generation = c.receiveGeneration datagram.header.trackAlias ∧
              Shadows delivered.2 datagram.header := by
          cases hwas with
          | inl hmarked =>
              obtain ⟨delivered, hmem, hgeneration, hsame⟩ := hmarked
              exact ⟨delivered, hmem, hgeneration, Or.inl hsame⟩
          | inr hfar =>
              obtain ⟨_, ⟨delivered, hmem, hgeneration, rfl⟩, hfar⟩ := hfar
              exact ⟨delivered, hmem, hgeneration, Or.inr hfar⟩
        obtain ⟨delivered, hmem, hgeneration, hshadows⟩ := hshadow
        obtain ⟨own, hown, hsame, hgroup, hreach⟩ := hapart track hbound hopen
          hauthenticated hdatagram hvalid hrateless delivered hmem hgeneration hshadows
        cases hreach with
        | inl hobject =>
            refine Or.inl ⟨own, hown, ?_⟩
            rw [← hsame, ← hgroup, ← hobject]
        | inr hfar => exact Or.inr ⟨hrateless, own, hown, hsame, hgroup, hfar⟩

/-- In every run, the symbols dropped as duplicates are rightly dropped exactly
when the groups of each rateless DATA subscription keep apart. -/
theorem run_suppressesRightly_iff (id : Nat) (limits : TransportLimits)
    (ops : List ReceiveOp) :
    Machine.Along (receive limits)
        (fun c op => ∀ env datagram, op = .datagram env datagram →
          c.SuppressesRightly datagram.message) (init id limits) ops ↔
      Machine.Along (receive limits)
        (fun c op => ∀ env datagram, op = .datagram env datagram →
          c.GroupsApart datagram.message) (init id limits) ops := by
  apply Machine.along_congr Recalls (recalls_init id limits)
  · intro c op hrecalls
    exact recalls_receive limits hrecalls op
  · intro c op hrecalls
    constructor
    · intro hright env datagram hop
      exact (suppressesRightly_iff hrecalls _).mp (hright env datagram hop)
    · intro hapart env datagram hop
      exact (suppressesRightly_iff hrecalls _).mpr (hapart env datagram hop)

def feedTrack : TrackId where
  type := .data
  flags := flagFecRateless
  name := [102]

/-- Object 5 of group 1 of a fresh subscription. -/
def firstGroupRun : List ReceiveOp :=
  subscribing defaultLimits feedTrack ++
    [.datagram quietReceive (singleSymbol feedTrack 8 1 5 [7])]

/-- Object 5 of group 2 is dropped once object 5 of group 1 was delivered. -/
theorem other_group_suppressed :
    let c := receiveAll defaultLimits (init 0 defaultLimits)
      firstGroupRun
    ¬ c.SuppressesRightly (singleSymbol feedTrack 8 2 5 [9]).message := by
  intro c hright
  have hdeliveries : c.deliveries = [(feedTrack, ⟨1, 1, 5⟩)] := by decide +kernel
  have hgeneration : c.receiveGeneration 8 = 1 := by decide +kernel
  obtain ⟨track, hbound, hreason⟩ := hright (by decide +kernel)
  simp [deliveredBefore, behindGroup, hdeliveries, hgeneration, singleSymbol] at hreason

/-! ### At most one delivery -/

/-- Objects completed after the last delivery of the identity number less than
the ring holds. -/
def Timely (identity : ObjectIdentity) (c : Conn) (datagram : Datagram) : Prop :=
  datagram.header.groupId = identity.groupId →
  datagram.header.objectId = identity.objectId →
  c.receiveGeneration datagram.header.trackAlias = identity.generation →
  ∀ before delivered after, c.deliveries = before ++ delivered :: after →
    delivered.2 = identity →
    (after.filter fun other => other.2 ≠ identity).length < completedObjectsLimit

def timesDelivered (c : Conn) (identity : ObjectIdentity) : Nat :=
  c.deliveries.countP fun delivered => delivered.2 = identity

/-- Deliveries of an object id of a rateless DATA generation, in any group. -/
def timesDeliveredRateless (c : Conn) (generation objectId : Nat) : Nat :=
  c.deliveries.countP fun delivered =>
    delivered.1.isRatelessData && delivered.2.generation == generation &&
      delivered.2.objectId == objectId

theorem Delivers.timesDelivered {c c' : Conn}
    (hdelivers : Delivers c c' track a groupId objectId) (identity : ObjectIdentity) :
    c'.timesDelivered identity = c.timesDelivered identity +
      if (⟨c.receiveGeneration a, groupId, objectId⟩ : ObjectIdentity) = identity
      then 1 else 0 := by
  simp [Conn.timesDelivered, hdelivers.deliveries, List.countP_append, List.countP_cons]

theorem Delivers.timesDeliveredRateless {c c' : Conn}
    (hdelivers : Delivers c c' track a groupId objectId) (generation id : Nat) :
    c'.timesDeliveredRateless generation id = c.timesDeliveredRateless generation id +
      if track.isRatelessData ∧ c.receiveGeneration a = generation ∧ objectId = id
      then 1 else 0 := by
  simp [Conn.timesDeliveredRateless, hdelivers.deliveries, List.countP_append,
    List.countP_cons, and_assoc]

theorem timesDelivered_of_rebinds {c c' : Conn} (hrebinds : Rebinds c c')
    (identity : ObjectIdentity) : c'.timesDelivered identity = c.timesDelivered identity := by
  unfold timesDelivered
  rw [hrebinds.deliveries]

theorem timesDeliveredRateless_of_rebinds {c c' : Conn} (hrebinds : Rebinds c c')
    (generation objectId : Nat) :
    c'.timesDeliveredRateless generation objectId =
      c.timesDeliveredRateless generation objectId := by
  unfold timesDeliveredRateless
  rw [hrebinds.deliveries]

theorem mem_take_reverse {items : List α} (hsplit : items = before ++ item :: after)
    (hlength : after.length < n) : item ∈ items.reverse.take n := by
  have hreverse : items.reverse = (after.reverse ++ [item]) ++ before.reverse := by
    simp [hsplit]
  rw [hreverse, List.take_append, List.mem_append]
  left
  rw [List.take_of_length_le (by simp; omega)]
  simp

/-- A timely symbol of a delivered object hits the completion ring. -/
theorem not_delivered_of_timely {c : Conn} (hrecalls : c.Recalls)
    (hbound : c.receiveSubscriptions.findByAlias datagram.header.trackAlias = some track)
    (hnew : c.duplicateObject track datagram.header = false)
    (htimely : Timely ⟨c.receiveGeneration datagram.header.trackAlias,
      datagram.header.groupId, datagram.header.objectId⟩ c datagram)
    (honce : c.timesDelivered ⟨c.receiveGeneration datagram.header.trackAlias,
      datagram.header.groupId, datagram.header.objectId⟩ ≤ 1) :
    c.timesDelivered ⟨c.receiveGeneration datagram.header.trackAlias,
      datagram.header.groupId, datagram.header.objectId⟩ = 0 := by
  generalize hidentity : (⟨c.receiveGeneration datagram.header.trackAlias,
    datagram.header.groupId, datagram.header.objectId⟩ : ObjectIdentity) = identity
    at htimely honce ⊢
  by_contra hdelivered
  obtain ⟨delivered, hmem, hsame⟩ :=
    List.countP_pos_iff.mp (Nat.pos_of_ne_zero hdelivered)
  have hsame : delivered.2 = identity := by simpa using hsame
  obtain ⟨before, after, hsplit⟩ := List.append_of_mem hmem
  have hothers : after.countP (fun other => other.2 = identity) = 0 := by
    unfold timesDelivered at honce
    rw [hsplit, List.countP_append, List.countP_cons] at honce
    simp only [hsame, decide_true, if_true] at honce
    omega
  have hfew := htimely (by rw [← hidentity]) (by rw [← hidentity]) (by rw [← hidentity])
    before delivered after hsplit hsame
  rw [List.filter_eq_self.mpr (by simpa using hothers)] at hfew
  have hring : identity ∈ c.completedObjects.map CompletedObject.identity := by
    rw [hrecalls.ring]
    have hidentities : c.deliveries.map Prod.snd =
        before.map Prod.snd ++ identity :: after.map Prod.snd := by simp [hsplit, hsame]
    exact mem_take_reverse hidentities (by simpa using hfew)
  obtain ⟨completed, hcompleted, heq⟩ := List.mem_map.mp hring
  subst hidentity
  have hgeneration : completed.generation =
      c.receiveGeneration datagram.header.trackAlias :=
    congrArg ObjectIdentity.generation heq
  have hduplicate : c.duplicateObject track datagram.header = true :=
    duplicateObject_iff.mpr (Or.inl ⟨completed, hcompleted,
      hrecalls.aliases completed hcompleted _ track hbound hgeneration, hgeneration,
      congrArg ObjectIdentity.groupId heq, congrArg ObjectIdentity.objectId heq⟩)
  rw [hduplicate] at hnew
  cases hnew

/-- The history answers for every object id of a rateless DATA generation. -/
theorem not_deliveredRateless {c : Conn} (hrecalls : c.Recalls)
    (hbound : c.receiveSubscriptions.findByAlias header.trackAlias = some track)
    (hrateless : track.isRatelessData) (hnew : c.duplicateObject track header = false) :
    c.timesDeliveredRateless (c.receiveGeneration header.trackAlias) header.objectId = 0 := by
  by_contra hdelivered
  obtain ⟨delivered, hmem, hsame⟩ :=
    List.countP_pos_iff.mp (Nat.pos_of_ne_zero hdelivered)
  simp only [Bool.and_eq_true, beq_iff_eq] at hsame
  have hwas : (c.objectGap header.trackAlias).objectWasDelivered header.objectId = true := by
    rw [ObjectGapState.objectWasDelivered_iff (hrecalls.history _ track hbound hrateless)]
    exact Or.inl ⟨delivered, hmem, hsame.1.2, hsame.2⟩
  have hduplicate : c.duplicateObject track header = true :=
    duplicateObject_iff.mpr (Or.inr ⟨hrateless, hwas⟩)
  rw [hduplicate] at hnew
  cases hnew

/-- What every run of the receiver keeps for one identity. -/
structure DeliversOnce (identity : ObjectIdentity) (c : Conn) : Prop where
  recalls : c.Recalls
  once : c.timesDelivered identity ≤ 1

structure DeliversRatelessOnce (generation objectId : Nat) (c : Conn) : Prop where
  recalls : c.Recalls
  once : c.timesDeliveredRateless generation objectId ≤ 1

theorem deliversRatelessOnce_receive (limits : TransportLimits) {c : Conn}
    (hinv : DeliversRatelessOnce generation objectId c) (op : ReceiveOp) :
    DeliversRatelessOnce generation objectId (receive limits c op) := by
  refine ⟨recalls_receive limits hinv.recalls op, ?_⟩
  cases receive_cases limits c op with
  | inl hrebinds =>
      rw [timesDeliveredRateless_of_rebinds hrebinds]
      exact hinv.once
  | inr hdelivers =>
      obtain ⟨_, datagram, track, _, hbound, _, hnew, hdelivers⟩ := hdelivers
      rw [hdelivers.timesDeliveredRateless]
      split
      · next hsame =>
          obtain ⟨hrateless, rfl, rfl⟩ := hsame
          rw [not_deliveredRateless hinv.recalls hbound hrateless hnew]
      · exact hinv.once

theorem deliversOnce_receive (limits : TransportLimits) {c : Conn}
    (hinv : DeliversOnce identity c)
    (htimely : ∀ env datagram, op = .datagram env datagram →
      Timely identity c datagram.message) :
    DeliversOnce identity (receive limits c op) := by
  refine ⟨recalls_receive limits hinv.recalls op, ?_⟩
  cases receive_cases limits c op with
  | inl hrebinds =>
      rw [timesDelivered_of_rebinds hrebinds]
      exact hinv.once
  | inr hdelivers =>
      obtain ⟨env, datagram, track, hop, hbound, _, hnew, hdelivers⟩ := hdelivers
      rw [hdelivers.timesDelivered]
      split
      · next hsame =>
          subst hsame
          rw [not_delivered_of_timely hinv.recalls hbound hnew (htimely env datagram hop)
            hinv.once]
      · exact hinv.once

/-- Rateless DATA subscriptions deliver an object id at most once, and every
identity whose symbols stay timely is delivered at most once. -/
theorem run_delivers_once (id : Nat) (limits : TransportLimits) (ops : List ReceiveOp) :
    (∀ generation objectId, (receiveAll limits (init id limits) ops
      ).timesDeliveredRateless generation objectId ≤ 1) ∧
    ∀ identity, Machine.Along (receive limits)
      (fun c op => ∀ env datagram, op = .datagram env datagram →
        Timely identity c datagram.message) (init id limits) ops →
      (receiveAll limits (init id limits) ops).timesDelivered identity ≤ 1 := by
  constructor
  · intro generation objectId
    have hstart : DeliversRatelessOnce generation objectId (init id limits) :=
      ⟨recalls_init id limits, by simp [init, timesDeliveredRateless, deliveries]⟩
    have hrun : DeliversRatelessOnce generation objectId
        (receiveAll limits (init id limits) ops) :=
      Machine.invariant_run
        (fun _ op hinv _ => deliversRatelessOnce_receive limits hinv op) hstart
        (Machine.along_true _ ops)
    exact hrun.once
  · intro identity htimely
    have hstart : DeliversOnce identity (init id limits) :=
      ⟨recalls_init id limits, by simp [init, timesDelivered, deliveries]⟩
    have hrun : DeliversOnce identity (receiveAll limits (init id limits) ops) :=
      Machine.invariant_run (fun _ _ hinv hok => deliversOnce_receive limits hinv hok)
        hstart htimely
    exact hrun.once

theorem timely_of_few {c : Conn} (hfew : c.deliveries.length ≤ completedObjectsLimit)
    (identity : ObjectIdentity) (datagram : Datagram) : Timely identity c datagram := by
  intro _ _ _ before delivered after hsplit _
  have hlength := congrArg List.length hsplit
  have hfilter := List.length_filter_le
    (fun other : TrackId × ObjectIdentity => decide (other.2 ≠ identity)) after
  simp only [List.length_append, List.length_cons] at hlength
  omega

/-- The same symbol arrives twice. -/
def repeatedRun : List ReceiveOp :=
  firstGroupRun ++ [.datagram quietReceive (singleSymbol feedTrack 8 1 5 [7])]

theorem repeated_delivered_once :
    (receiveAll defaultLimits (init 0 defaultLimits) repeatedRun).timesDelivered
      ⟨1, 1, 5⟩ ≤ 1 := by
  refine (run_delivers_once 0 defaultLimits repeatedRun).2 ⟨1, 1, 5⟩ ?_
  refine ⟨by simp, by simp, by simp, ?_, ?_, trivial⟩
  · intro env datagram _
    exact timely_of_few (by decide +kernel) _ _
  · intro env datagram _
    exact timely_of_few (by decide +kernel) _ _

end Conn

end Qlinq
