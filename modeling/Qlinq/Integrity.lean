import Qlinq.Reassembly
import Qlinq.Suppression

namespace Qlinq

/-! Payload integrity: the bytes delivered for an object are the published ones. -/

/-- Identity and bytes of an object a datagram track handed to the application. -/
def Event.payload : Event → Option (ObjectIdentity × Bytes)
  | .object track generation groupId objectId data _ =>
      if (trackProfile track).reliable then
        none
      else
        some (⟨generation, groupId, objectId⟩, data)
  | _ => none

namespace Conn

open FrameAssembler (Holds OneEncoding)

def payloads (c : Conn) : List (ObjectIdentity × Bytes) :=
  c.events.filterMap Event.payload

theorem payloads_emit (c : Conn) (event : Event) :
    (c.emit event).payloads = c.payloads ++ event.payload.toList := by
  cases hevent : event.payload <;> simp [payloads, emit, hevent]

/-! ### Steps that assemble nothing -/

/-- Assemblers are dropped at most, and no object is handed out. -/
structure DropsAssembly (c c' : Conn) : Prop where
  assemblers : ∀ assembler, some assembler ∈ c'.assemblers → some assembler ∈ c.assemblers
  payloads : c'.payloads = c.payloads

namespace DropsAssembly

theorem refl (c : Conn) : DropsAssembly c c := ⟨fun _ h => h, rfl⟩

theorem trans {c c' c'' : Conn} (hfirst : DropsAssembly c c')
    (hsecond : DropsAssembly c' c'') : DropsAssembly c c'' :=
  ⟨fun assembler h => hfirst.assemblers assembler (hsecond.assemblers assembler h),
    hsecond.payloads.trans hfirst.payloads⟩

theorem of_untouched {c c' : Conn} (hassemblers : c'.assemblers = c.assemblers)
    (hevents : c'.events = c.events) : DropsAssembly c c' :=
  ⟨fun assembler h => hassemblers ▸ h, by simp only [Conn.payloads, hevents]⟩

end DropsAssembly

theorem mem_map_filter {slots : List (Option FrameAssembler)} {keep : FrameAssembler → Bool}
    (hmem : some assembler ∈ slots.map (Option.filter keep)) :
    some assembler ∈ slots ∧ keep assembler := by
  obtain ⟨slot, hslot, hkept⟩ := List.mem_map.mp hmem
  obtain ⟨hsome, hkeep⟩ := Option.filter_eq_some_iff.mp hkept
  exact ⟨hsome ▸ hslot, hkeep⟩

theorem drops_emit {c : Conn} (hsilent : event.payload = none) :
    DropsAssembly c (c.emit event) := by
  refine ⟨fun _ h => h, ?_⟩
  rw [payloads_emit, hsilent]
  simp

theorem drops_setObjectGap (c : Conn) (a : TrackAlias) (gap : ObjectGapState) :
    DropsAssembly c (c.setObjectGap a gap) :=
  .of_untouched rfl rfl

theorem frame_dropsAssembly : ReceiveFrame DropsAssembly where
  refl := .refl
  trans := .trans
  closed _ _ := .of_untouched rfl rfl
  drained _ _ := .of_untouched rfl rfl
  written _ _ _ _ := .of_untouched rfl rfl
  acceptedWindows _ _ := .of_untouched rfl rfl
  assemblers _ _ := ⟨fun _ h => (mem_map_filter h).1, rfl⟩
  objectGap c a gap _ := drops_setObjectGap c a gap

theorem drops_bindStream (c : Conn) (stream : Nat) (a : TrackAlias) :
    DropsAssembly c (c.bindStream stream a) := by
  unfold bindStream
  split
  · exact .of_untouched rfl rfl
  · exact .refl c

theorem drops_receiveTrackObject (c : Conn) (stream : Nat) (object : Sent TrackObject) :
    DropsAssembly c (c.receiveTrackObject stream object) := by
  unfold receiveTrackObject parseTrackObject
  split
  · exact frame_dropsAssembly.quiclyClose c _ _
  split
  · exact frame_dropsAssembly.quiclyClose c _ _
  simp only
  split
  · exact frame_dropsAssembly.protocolClose c _
  have hbind := drops_bindStream c stream object.message.trackAlias
  split
  · exact hbind
  next track _ =>
  split
  · exact hbind.trans (frame_dropsAssembly.protocolClose _ _)
  · next hreliable =>
      have hsilent : (trackProfile track).reliable = true := by simpa using hreliable
      exact hbind.trans (drops_emit (by simp [Event.payload, hsilent]))

theorem drops_setSlot (c : Conn) (slot : Nat) :
    DropsAssembly c { c with assemblers := c.assemblers.set slot none } := by
  refine ⟨fun assembler hmem => ?_, rfl⟩
  cases List.mem_or_eq_of_mem_set hmem with
  | inl hold => exact hold
  | inr hnone => simp at hnone

theorem drops_expireAssembler (c : Conn) (slot : Nat) :
    DropsAssembly c (c.expireAssembler slot) := by
  unfold expireAssembler
  split
  · exact .refl c
  split
  · exact .refl c
  simp only
  split
  · exact drops_setSlot c slot
  · exact (drops_emit rfl).trans (drops_setSlot _ slot)

theorem drops_receiveHello (c : Conn) (limits : TransportLimits) (hello : Hello) :
    DropsAssembly c (c.receiveHello limits hello) := by
  unfold receiveHello
  split
  · exact .refl c
  split
  · exact frame_dropsAssembly.protocolClose c _
  · exact .of_untouched rfl rfl

theorem drops_respondAuth (c : Conn) (success : Bool) :
    DropsAssembly c (c.respondAuth success) := by
  unfold respondAuth
  split
  · exact .refl c
  split
  · exact .of_untouched rfl rfl
  · exact frame_dropsAssembly.quiclyClose c _ _

/-! ### Integrity -/

def identityOf (c : Conn) (a : TrackAlias) (groupId objectId : Nat) : ObjectIdentity where
  generation := c.receiveGeneration a
  groupId := groupId
  objectId := objectId

/-- What holds for an identity whose datagrams all come from one object. -/
structure Intact (codec : FecCodec) (object : MoqObject) (geometry : Geometry)
    (identity : ObjectIdentity) (c : Conn) : Prop where
  bound : ∀ assembler, some assembler ∈ c.assemblers →
    (c.receiveSubscriptions.findByAlias assembler.trackAlias).isSome
  assembled : ∀ assembler, some assembler ∈ c.assemblers →
    c.identityOf assembler.trackAlias assembler.groupId assembler.objectId = identity →
    Holds codec object geometry assembler
  delivered : ∀ data, (identity, data) ∈ c.payloads → data = object.data

theorem intact_init (id : Nat) (limits : TransportLimits) :
    Intact codec object geometry identity (init id limits) where
  bound := by simp [init]
  assembled := by simp [init]
  delivered := by simp [init, payloads]

theorem keepsDelivered_writeControlFrame (c : Conn) (frame : Sent ControlFrame) :
    KeepsDelivered c (c.writeControlFrame frame).1 :=
  frame_keepsDelivered.writeControlFrame c frame fun _ => .of_untouched rfl rfl rfl

theorem drops_writeControlFrame (c : Conn) (frame : Sent ControlFrame) :
    DropsAssembly c (c.writeControlFrame frame).1 :=
  frame_dropsAssembly.writeControlFrame c frame fun _ => .of_untouched rfl rfl

/-- The bindings of the remaining assemblers stay. -/
theorem Intact.rebinds {c c' : Conn} (hintact : Intact codec object geometry identity c)
    (hdrops : DropsAssembly c c')
    (hstay : ∀ assembler, some assembler ∈ c'.assemblers →
      (c.receiveSubscriptions.findByAlias assembler.trackAlias).isSome →
      (c'.receiveSubscriptions.findByAlias assembler.trackAlias).isSome ∧
        c'.receiveGeneration assembler.trackAlias =
          c.receiveGeneration assembler.trackAlias) :
    Intact codec object geometry identity c' := by
  have hold := fun assembler hmem => hintact.bound assembler (hdrops.assemblers assembler hmem)
  refine ⟨fun assembler hmem => ?_, fun assembler hmem hidentity => ?_, ?_⟩
  · exact (hstay assembler hmem (hold assembler hmem)).1
  · rw [identityOf, (hstay assembler hmem (hold assembler hmem)).2] at hidentity
    exact hintact.assembled assembler (hdrops.assemblers assembler hmem) hidentity
  · rw [hdrops.payloads]
    exact hintact.delivered

theorem Intact.keeps {c c' : Conn} (hintact : Intact codec object geometry identity c)
    (hkept : KeepsDelivered c c') (hdrops : DropsAssembly c c') :
    Intact codec object geometry identity c' := by
  refine hintact.rebinds hdrops fun assembler _ hbound => ⟨?_, hkept.generation _⟩
  rw [hkept.findByAlias]
  exact hbound

theorem remove_keeps_others {table : SubscriptionTable}
    (hbound : table.findByAlias a = some track) (hother : b ≠ a) :
    (table.remove track).findByAlias b = table.findByAlias b ∧
      (table.remove track).getState b = table.getState b := by
  rw [SubscriptionTable.remove_of_bound hbound]
  constructor
  · rw [SubscriptionTable.findByAlias_removeAlias, if_neg hother]
  · simp [SubscriptionTable.getState, SubscriptionTable.removeAlias, hother]

/-- A fresh subscription leaves every binding in place. -/
theorem add_keeps_bound {table table' : SubscriptionTable} (hfind : table.find track = none)
    (hadd : table.add track a = some table') :
    table.findByAlias a = none ∧ table'.findByAlias a = some track ∧
      ∀ b ≠ a, table'.findByAlias b = table.findByAlias b ∧
        table'.getState b = table.getState b := by
  have hnone : ∀ b old, table.findByAlias b = some old → old.key ≠ track.key := by
    intro b old hbound hkey
    have halias := SubscriptionTable.findAlias_eq_some_iff_bound.mpr ⟨old, hbound, hkey⟩
    simp [SubscriptionTable.findAlias, hfind] at halias
  rcases SubscriptionTable.add_cases hadd with ⟨hbound, _⟩ |
    ⟨hfree, hbound, _, _, hothers⟩
  · exact absurd rfl (hnone a track hbound)
  · refine ⟨hfree, hbound, fun b hb => ?_⟩
    cases hothers b hb with
    | inl hkept => exact hkept
    | inr hmoved =>
        obtain ⟨⟨old, hold, hkey⟩, _⟩ := hmoved
        exact absurd hkey (hnone b old hold)

theorem Intact.subscribeConnection (hintact : Intact codec object geometry identity c)
    (track : TrackId) :
    Intact codec object geometry identity (c.subscribeConnection track).1 := by
  unfold Conn.subscribeConnection
  split
  · exact hintact
  split
  · split
    · exact hintact
    · exact hintact.keeps (keepsDelivered_writeControlFrame c _)
        (drops_writeControlFrame c _)
  next hfind =>
  split
  · exact hintact
  split
  · exact hintact
  next a _ =>
  split
  · exact hintact
  next table hadd =>
  extract_lets added
  obtain ⟨hfree, hbound, hothers⟩ := add_keeps_bound hfind hadd
  have hdrops : DropsAssembly c added := .of_untouched rfl rfl
  have hadded : Intact codec object geometry identity added := by
    refine hintact.rebinds hdrops fun assembler _ hold => ?_
    have hother : assembler.trackAlias ≠ a := by
      intro h
      simp [h, hfree] at hold
    obtain ⟨hfindByAlias, hstate⟩ := hothers _ hother
    exact ⟨by simpa [added, hfindByAlias] using hold,
      by simp only [receiveGeneration, added, hstate]⟩
  have hkept := keepsDelivered_writeControlFrame added
    (added.receiveFrame a (.subscribe a track))
  have hwrite := hadded.keeps hkept (drops_writeControlFrame added _)
  have hdropped := drops_writeControlFrame added
    (added.receiveFrame a (.subscribe a track))
  split
  · next hwritten =>
      rw [hwritten] at hwrite
      exact hwrite
  · next written hfailed =>
      rw [hfailed] at hwrite hkept hdropped
      refine hwrite.rebinds (.of_untouched rfl rfl) fun assembler hmem hold => ?_
      have hother : assembler.trackAlias ≠ a := by
        intro h
        have hwas := hintact.bound assembler (hdropped.assemblers assembler hmem)
        simp [h, hfree] at hwas
      obtain ⟨hfindByAlias, hstate⟩ := remove_keeps_others
        ((hkept.findByAlias a).trans hbound) hother
      exact ⟨by simpa [hfindByAlias] using hold, by simp only [receiveGeneration, hstate]⟩

theorem Intact.unsubscribeConnection (hintact : Intact codec object geometry identity c)
    (track : TrackId) :
    Intact codec object geometry identity (c.unsubscribeConnection track).1 := by
  unfold Conn.unsubscribeConnection
  split
  · exact hintact
  split
  · exact hintact
  next entry hfind =>
  extract_lets a
  have hbound := (SubscriptionTable.bound_of_find hfind).1
  have hkept := keepsDelivered_writeControlFrame c
    (c.receiveFrame a (.unsubscribe a entry.trackId))
  have hwrite := hintact.keeps hkept (drops_writeControlFrame c _)
  split
  · next hfailed =>
      rw [hfailed] at hwrite
      exact hwrite
  · next written hwritten =>
      rw [hwritten] at hwrite hkept
      refine hwrite.rebinds ⟨fun _ h => (mem_map_filter h).1, rfl⟩ fun assembler hmem hold => ?_
      have hother : assembler.trackAlias ≠ a := by simpa using (mem_map_filter hmem).2
      obtain ⟨hfindByAlias, hstate⟩ := remove_keeps_others
        ((hkept.findByAlias a).trans hbound) hother
      exact ⟨by simpa [hfindByAlias] using hold, by simp only [receiveGeneration, hstate]⟩

/-! ### Datagrams -/

theorem Intact.setSlot (hintact : Intact codec object geometry identity c) (slot : Nat)
    (hbound : (c.receiveSubscriptions.findByAlias assembler.trackAlias).isSome)
    (hholds : c.identityOf assembler.trackAlias assembler.groupId assembler.objectId =
      identity → Holds codec object geometry assembler) :
    Intact codec object geometry identity
      { c with assemblers := c.assemblers.set slot (some assembler) } := by
  refine ⟨fun other hmem => ?_, fun other hmem => ?_, hintact.delivered⟩
  · cases List.mem_or_eq_of_mem_set hmem with
    | inl hold => exact hintact.bound other hold
    | inr hnew =>
        obtain rfl := Option.some.inj hnew
        exact hbound
  · cases List.mem_or_eq_of_mem_set hmem with
    | inl hold => exact hintact.assembled other hold
    | inr hnew =>
        obtain rfl := Option.some.inj hnew
        exact hholds

theorem completeObject_assembly {c : Conn} (hdatagram : (trackProfile track).reliable = false)
    (slot : Nat) (assembler : FrameAssembler) (blocks : List Bytes) :
    (∀ other, some other ∈ (c.completeObject slot track assembler blocks).assemblers →
      some other ∈ c.assemblers) ∧
    (c.completeObject slot track assembler blocks).payloads =
      c.payloads ++ [(c.identityOf assembler.trackAlias assembler.groupId assembler.objectId,
        blocks.flatten.take assembler.originalSize)] := by
  unfold completeObject
  extract_lets a generation completed ringed marked
  have hmarked : DropsAssembly c marked := by
    have hringed : DropsAssembly c ringed := .of_untouched rfl rfl
    simp only [marked]
    split
    · have hmark := drops_setObjectGap ringed a
        ((ringed.objectGap a).markObjectDelivered assembler.objectId)
      exact (hringed.trans hmark).trans (frame_dropsAssembly.answers.recoveryMarkDelivered _ a
        assembler.groupId assembler.objectId)
    · exact hringed
  constructor
  · intro other hmem
    exact hmarked.assemblers other ((drops_setSlot marked slot).assemblers other hmem)
  · change (marked.emit _).payloads = _
    rw [payloads_emit, hmarked.payloads]
    simp [Event.payload, hdatagram, identityOf, generation, a]

theorem Intact.completeObject (hintact : Intact codec object geometry identity c)
    (hbound : c.receiveSubscriptions.findByAlias assembler.trackAlias = some track)
    (hdatagram : (trackProfile track).reliable = false) (slot : Nat)
    (hdata : c.identityOf assembler.trackAlias assembler.groupId assembler.objectId =
      identity → blocks.flatten.take assembler.originalSize = object.data) :
    Intact codec object geometry identity
      (c.completeObject slot track assembler blocks) := by
  have hdelivers := delivers_completeObject hbound hdatagram slot blocks
  obtain ⟨hassemblers, hpayloads⟩ :=
    completeObject_assembly (c := c) hdatagram slot assembler blocks
  refine ⟨fun other hmem => ?_, fun other hmem hidentity => ?_, fun data hmem => ?_⟩
  · rw [hdelivers.findByAlias]
    exact hintact.bound other (hassemblers other hmem)
  · rw [identityOf, hdelivers.generation] at hidentity
    exact hintact.assembled other (hassemblers other hmem) hidentity
  · rw [hpayloads] at hmem
    cases List.mem_append.mp hmem with
    | inl hold => exact hintact.delivered data hold
    | inr hnew =>
        obtain ⟨hidentity, rfl⟩ := Prod.mk.inj (List.mem_singleton.mp hnew)
        exact hdata hidentity.symm

theorem Intact.openAssembler (hintact : Intact codec object geometry identity c)
    (env : ReceiveEnv) (header : FecHeader)
    (hbound : (c.receiveSubscriptions.findByAlias header.trackAlias).isSome)
    (hholds : c.identityOf header.trackAlias header.groupId header.objectId = identity →
      Holds codec object geometry (freshAssembler header env.now)) :
    Intact codec object geometry identity (c.openAssembler env header).1 := by
  unfold Conn.openAssembler
  extract_lets selected lossy advanced
  have hlossy : KeepsDelivered c lossy ∧ DropsAssembly c lossy := by
    simp only [lossy]
    split
    · exact ⟨.refl c, .refl c⟩
    split
    · exact ⟨.refl c, .refl c⟩
    · exact ⟨keeps_emit rfl, drops_emit rfl⟩
  have hkept : KeepsDelivered c advanced := hlossy.1.trans (.of_untouched rfl rfl rfl)
  have hadvanced : Intact codec object geometry identity advanced :=
    hintact.keeps hkept (hlossy.2.trans (.of_untouched rfl rfl))
  split
  · exact hadvanced.keeps (.of_untouched rfl rfl rfl) (drops_setSlot advanced selected)
  · refine hadvanced.setSlot selected ?_ ?_
    · rw [hkept.findByAlias]
      exact hbound
    · intro hidentity
      rw [identityOf, hkept.generation] at hidentity
      exact hholds hidentity

theorem placeSymbol_identity (assembler : FrameAssembler) (datagram : Sent Datagram)
    (now : Nat) :
    (placeSymbol assembler datagram now).trackAlias = assembler.trackAlias ∧
      (placeSymbol assembler datagram now).groupId = assembler.groupId ∧
      (placeSymbol assembler datagram now).objectId = assembler.objectId := by
  unfold placeSymbol acceptSymbol
  split <;> exact ⟨rfl, rfl, rfl⟩

theorem Intact.assemble (hintact : Intact codec object geometry identity c)
    (hbound : c.receiveSubscriptions.findByAlias assembler.trackAlias = some track)
    (hdatagram : (trackProfile track).reliable = false) (slot : Nat)
    (hplaced : c.identityOf assembler.trackAlias assembler.groupId assembler.objectId =
      identity →
      Holds codec object geometry (placeSymbol assembler datagram env.now) ∧
      ∀ blocks, assembledBlocks env.codec (trackProfile track).fecRateless
          (placeSymbol assembler datagram env.now) = some blocks →
        blocks.flatten.take (placeSymbol assembler datagram env.now).originalSize =
          object.data) :
    Intact codec object geometry identity (c.assemble env track slot assembler datagram) := by
  obtain ⟨halias, hgroup, hobject⟩ := placeSymbol_identity assembler datagram env.now
  unfold Conn.assemble
  extract_lets header grown accepted stored
  have haccepted : accepted = placeSymbol assembler datagram env.now := rfl
  rw [← haccepted] at halias hgroup hobject hplaced
  split
  · exact hintact
  have hstored : Intact codec object geometry identity stored := by
    refine hintact.setSlot slot ?_ ?_
    · rw [halias, hbound]
      rfl
    · rw [halias, hgroup, hobject]
      exact fun hidentity => (hplaced hidentity).1
  split
  · exact hstored
  next blocks hblocks =>
  split
  · exact hstored
  · refine hstored.completeObject (by rw [halias]; exact hbound) hdatagram slot ?_
    rw [halias, hgroup, hobject]
    exact fun hidentity => (hplaced hidentity).2 blocks hblocks

/-- The assembler of the symbol's object, with the symbol in it. -/
def placed (c : Conn) (env : ReceiveEnv) (datagram : Sent Datagram) : FrameAssembler :=
  match c.findAssembler datagram.message.header with
  | none => placeSymbol (freshAssembler datagram.message.header env.now) datagram env.now
  | some (_, assembler) => placeSymbol assembler datagram env.now

/-- Symbols that arrive under the identity are ones a sender queued for the object. -/
def FedBy (codec : FecCodec) (object : MoqObject) (geometry : Geometry)
    (identity : ObjectIdentity) (c : Conn) (op : ReceiveOp) : Prop :=
  ∀ env datagram track, op = .datagram env datagram →
    c.receiveSubscriptions.findByAlias datagram.message.header.trackAlias = some track →
    c.identityOf datagram.message.header.trackAlias datagram.message.header.groupId
      datagram.message.header.objectId = identity →
    env.codec = codec ∧ SentFor codec object geometry datagram

/-- Whenever the codec is asked for the object, it is asked about one encoding. -/
def AsksOneEncoding (object : MoqObject) (identity : ObjectIdentity) (c : Conn)
    (op : ReceiveOp) : Prop :=
  ∀ env datagram track, op = .datagram env datagram →
    c.receiveSubscriptions.findByAlias datagram.message.header.trackAlias = some track →
    c.identityOf datagram.message.header.trackAlias datagram.message.header.groupId
      datagram.message.header.objectId = identity →
    (c.placed env datagram).Decodes →
    OneEncoding object (trackProfile track).fecRateless (c.placed env datagram)

instance (object : MoqObject) (identity : ObjectIdentity) (c : Conn) (op : ReceiveOp) :
    Decidable (AsksOneEncoding object identity c op) :=
  match op with
  | .datagram env datagram =>
      match hbound : c.receiveSubscriptions.findByAlias datagram.message.header.trackAlias with
      | none => isTrue fun _ _ _ hop hsome => by cases hop; simp [hbound] at hsome
      | some track =>
          decidable_of_iff
            (c.identityOf datagram.message.header.trackAlias datagram.message.header.groupId
                datagram.message.header.objectId = identity →
              (c.placed env datagram).Decodes →
              OneEncoding object (trackProfile track).fecRateless (c.placed env datagram))
            ⟨fun h _ _ other hop hsome => by
                cases hop
                obtain rfl := Option.some.inj (hbound.symm.trans hsome)
                exact h,
              fun h => h env datagram track rfl hbound⟩
  | .hello _ | .respondAuth _ | .subscribe _ | .unsubscribe _ | .trackObject _ _
  | .trackCheckpoint _ | .trackEnd _ | .expire _ | .flushAcks | .sendNack _ _
  | .admissions _ | .close _ _ => isTrue fun _ _ _ hop => by cases hop

theorem mem_of_findAssembler {c : Conn}
    (hfound : c.findAssembler header = some (slot, assembler)) :
    some assembler ∈ c.assemblers := by
  obtain ⟨⟨found, index⟩, hmem, hsome⟩ := List.exists_of_findSome?_eq_some hfound
  obtain ⟨other, hother, heq⟩ := Option.map_eq_some_iff.mp hsome
  obtain ⟨_, rfl⟩ := Prod.mk.inj heq
  have hslot := (Option.filter_eq_some_iff.mp hother).1
  have hindexed := List.fst_mem_of_mem_zipIdx hmem
  simp only [hslot] at hindexed
  exact hindexed

theorem size_le_of_datagramValid {c : Conn} {datagram : Datagram}
    (hvalid : c.datagramValid datagram = true)
    (hsymbol : datagram.SymbolOf codec object geometry) :
    object.size ≤ geometry.dataSymbols * geometry.symbolSize := by
  have hfits : datagram.header.originalSize ≤
      datagram.header.dataSymbols * datagram.header.symbolSize := by
    simp only [datagramValid, Bool.and_eq_true, decide_eq_true_eq] at hvalid
    omega
  obtain ⟨rfl, hsize, _⟩ := hsymbol
  rw [← hsize]
  exact hfits

/-- A symbol of the object in an assembler of the object. -/
theorem placeSymbol_intact (hlaw : codec.Recovers)
    (hholds : Holds codec object geometry assembler)
    (hsymbol : datagram.message.SymbolOf codec object geometry)
    (hfits : object.size ≤ geometry.dataSymbols * geometry.symbolSize)
    (hone : (placeSymbol assembler datagram now).Decodes →
      OneEncoding object rateless (placeSymbol assembler datagram now)) :
    Holds codec object geometry (placeSymbol assembler datagram now) ∧
      ∀ blocks, assembledBlocks codec rateless (placeSymbol assembler datagram now) =
          some blocks →
        blocks.flatten.take (placeSymbol assembler datagram now).originalSize =
          object.data := by
  have hplaced := holds_placeSymbol hholds hsymbol now
  exact ⟨hplaced, fun _ hblocks => take_assembledBlocks hlaw hplaced hfits hone hblocks⟩

theorem Intact.receiveDatagram (hlaw : codec.Recovers)
    (hintact : Intact codec object geometry identity c) (env : ReceiveEnv)
    (datagram : Sent Datagram)
    (hfed : FedBy codec object geometry identity c (.datagram env datagram))
    (hone : AsksOneEncoding object identity c (.datagram env datagram)) :
    Intact codec object geometry identity (c.receiveDatagram env datagram) := by
  unfold Conn.receiveDatagram
  extract_lets header
  split
  · exact hintact
  split
  · exact hintact
  next track hbound =>
  split
  · exact hintact.keeps (frame_keepsDelivered.protocolClose c _)
      (frame_dropsAssembly.protocolClose c _)
  next hreliable =>
  split
  · exact hintact
  next hinvalid =>
  split
  · exact hintact
  extract_lets observed
  have hvalid : c.datagramValid datagram.message = true := by simpa using hinvalid
  have hdatagram : (trackProfile track).reliable = false := by simpa using hreliable
  have hkept : KeepsDelivered c observed ∧ observed.assemblers = c.assemblers ∧
      observed.events = c.events := by
    simp only [observed]
    split
    · exact ⟨keeps_setObjectGap (ObjectGapState.sameHistory_observe _ _ _), rfl, rfl⟩
    · exact ⟨.refl c, rfl, rfl⟩
  obtain ⟨hkept, hassemblers, hevents⟩ := hkept
  have hobserved := hintact.keeps hkept (.of_untouched hassemblers hevents)
  have hsent := hfed env datagram track rfl hbound
  have hone := hone env datagram track rfl hbound
  have hfind : observed.findAssembler header = c.findAssembler header := by
    unfold findAssembler
    rw [hassemblers]
  have hsame : ∀ a, observed.identityOf a = c.identityOf a := by
    intro a
    unfold identityOf
    rw [hkept.generation]
  have hlater : observed.receiveSubscriptions.findByAlias header.trackAlias = some track := by
    rw [hkept.findByAlias]
    exact hbound
  unfold placed at hone
  split
  · next slot assembler hfound =>
      obtain ⟨halias, hgroup, hobject⟩ := findAssembler_eq_some hfound
      have hold := hobserved.assembled assembler (mem_of_findAssembler hfound)
      rw [hfind] at hfound
      simp only [header] at hfound halias hgroup hobject
      simp only [hfound] at hone
      split
      · exact hobserved
      refine hobserved.assemble (by rw [halias]; exact hlater) hdatagram slot ?_
      intro hidentity
      have hidentity' := hidentity
      rw [halias, hgroup, hobject, hsame] at hidentity'
      obtain ⟨hcodec, hsent⟩ := hsent hidentity'
      rw [hcodec]
      exact placeSymbol_intact hlaw (hold hidentity) hsent.symbolOf
        (size_le_of_datagramValid hvalid hsent.symbolOf) (hone hidentity')
  · next hfound =>
      rw [hfind] at hfound
      simp only [header] at hfound
      simp only [hfound] at hone
      have hfresh : c.identityOf header.trackAlias header.groupId header.objectId = identity →
          Holds codec object geometry (freshAssembler header env.now) := by
        intro hidentity
        exact holds_freshAssembler (hsent hidentity).2.symbolOf env.now
      have hopen := keeps_openAssembler observed env header
      have hopened := hobserved.openAssembler env header (by rw [hlater]; rfl)
        (by rw [hsame]; exact hfresh)
      split
      · next hfailed =>
          rw [hfailed] at hopened
          exact hopened
      · next slot assembler hstarted =>
          obtain rfl := openAssembler_eq_some hstarted
          rw [hstarted] at hopened hopen
          refine hopened.assemble (by
            rw [hopen.findByAlias]
            exact hlater) hdatagram slot ?_
          intro hidentity
          rw [identityOf, hopen.generation, hkept.generation] at hidentity
          obtain ⟨hcodec, hsent⟩ := hsent hidentity
          rw [hcodec]
          exact placeSymbol_intact hlaw (hfresh hidentity) hsent.symbolOf
            (size_le_of_datagramValid hvalid hsent.symbolOf) (hone hidentity)

theorem Intact.receive (hlaw : codec.Recovers) (limits : TransportLimits)
    (hintact : Intact codec object geometry identity c) (op : ReceiveOp)
    (hfed : FedBy codec object geometry identity c op)
    (hone : AsksOneEncoding object identity c op) :
    Intact codec object geometry identity (receive limits c op) := by
  cases op with
  | hello hello =>
      exact hintact.keeps (keeps_receiveHello c limits hello)
        (drops_receiveHello c limits hello)
  | respondAuth success =>
      exact hintact.keeps (keeps_respondAuth c success) (drops_respondAuth c success)
  | subscribe track => exact hintact.subscribeConnection track
  | unsubscribe track => exact hintact.unsubscribeConnection track
  | datagram env datagram => exact hintact.receiveDatagram hlaw env datagram hfed hone
  | trackObject stream object =>
      exact hintact.keeps (keeps_receiveTrackObject c stream object)
        (drops_receiveTrackObject c stream object)
  | trackCheckpoint checkpoint =>
      exact hintact.keeps
        (frame_keepsDelivered.receiveRecoveryFrame (·.receiveTrackCheckpoint checkpoint)
          (frame_keepsDelivered.receiveTrackCheckpoint c checkpoint))
        (frame_dropsAssembly.receiveRecoveryFrame (·.receiveTrackCheckpoint checkpoint)
          (frame_dropsAssembly.receiveTrackCheckpoint c checkpoint))
  | trackEnd finish =>
      exact hintact.keeps
        (frame_keepsDelivered.receiveRecoveryFrame (·.receiveTrackEnd finish)
          (frame_keepsDelivered.receiveTrackEnd c finish))
        (frame_dropsAssembly.receiveRecoveryFrame (·.receiveTrackEnd finish)
          (frame_dropsAssembly.receiveTrackEnd c finish))
  | expire slot =>
      exact hintact.keeps (keeps_expireAssembler c slot) (drops_expireAssembler c slot)
  | flushAcks =>
      exact hintact.keeps (frame_keepsDelivered.answers.flushRecoveryAcks c)
        (frame_dropsAssembly.answers.flushRecoveryAcks c)
  | sendNack request withheld =>
      exact hintact.keeps (frame_keepsDelivered.answers.sendNack c request withheld)
        (frame_dropsAssembly.answers.sendNack c request withheld)
  | admissions admissions =>
      exact hintact.keeps (.of_untouched rfl rfl rfl) (.of_untouched rfl rfl)
  | close code reason =>
      exact hintact.keeps (frame_keepsDelivered.quiclyClose c code reason)
        (frame_dropsAssembly.quiclyClose c code reason)

/-- In a run that receives, under one identity, any symbols sent for one object, and
asks the codec about one encoding at a time, what is delivered is the object. -/
theorem run_delivers_published (hlaw : codec.Recovers) (id : Nat) (limits : TransportLimits)
    (hfed : Machine.Along (receive limits) (FedBy codec object geometry identity)
      (init id limits) ops)
    (hone : Machine.Along (receive limits) (AsksOneEncoding object identity)
      (init id limits) ops)
    (hdelivered : (identity, data) ∈ (receiveAll limits (init id limits) ops).payloads) :
    data = object.data ∧ data.length = object.size := by
  have hboth : Machine.Along (receive limits) (fun c op =>
      FedBy codec object geometry identity c op ∧ AsksOneEncoding object identity c op)
      (init id limits) ops := hfed.and hone
  have hintact : Intact codec object geometry identity
      (receiveAll limits (init id limits) ops) :=
    Machine.invariant_run
      (fun _ op hinv hok => hinv.receive hlaw limits op hok.1 hok.2)
      (intact_init id limits) hboth
  obtain rfl := hintact.delivered data hdelivered
  exact ⟨rfl, rfl⟩

/-- Rateless symbols are of one encoding in every run. -/
theorem asksOneEncoding_of_rateless
    (hobject : (trackProfile object.trackId).fecRateless = true) (identity : ObjectIdentity)
    {c : Conn} {op : ReceiveOp}
    (hflags : ∀ env datagram track, op = .datagram env datagram →
      c.receiveSubscriptions.findByAlias datagram.message.header.trackAlias = some track →
      (trackProfile track).fecRateless = true) : AsksOneEncoding object identity c op := by
  intro env datagram track hop hbound _ _
  rw [hflags env datagram track hop hbound]
  exact FrameAssembler.oneEncoding_of_rateless hobject _

theorem along_fedBy (limits : TransportLimits) (c : Conn)
    (hsent : ∀ env datagram, .datagram env datagram ∈ ops →
      env.codec = codec ∧ SentFor codec object geometry datagram) :
    Machine.Along (receive limits) (FedBy codec object geometry identity) c ops := by
  refine Machine.along_of_forall_mem (fun _ op hmem env datagram _ hop _ _ => ?_) c
  subst hop
  exact hsent env datagram hmem

/-! ### Two attempts of one publication -/

def boxTrack : TrackId where
  type := .data
  flags := flagFecEnabled
  name := [98]

/-- A group of two records, in two symbols. -/
def boxObject : MoqObject where
  trackId := boxTrack
  groupId := 1
  objectId := 0
  data := recordFraming.frames [List.replicate 998 1, List.replicate 498 2]

def boxGeometry : Geometry := ⟨1200, 2, 1500⟩

/-- A load balancer that adds parity to its first path. -/
def parityConn (paritySymbols refused : Nat) : ConnEnv :=
  { Transport.quietConn with
    codec := Repetition.codec
    pathflow := { Transport.firstPathflow with
      optimize := fun _ symbols _ => some fun index =>
        if index = 0 then ⟨symbols, symbols + paritySymbols⟩ else ⟨0, 0⟩ }
    packet := fun symbol => if symbol = refused then .refused else .queued }

def boxSender : Conn :=
  (Transport.server.run (Transport.join 0 defaultLimits 8 boxTrack)).conns.headD
    (init 0 defaultLimits)

def attempt (c : Conn) (paritySymbols refused : Nat) : Conn :=
  (publishDatagramToConn (parityConn paritySymbols refused) c boxObject
    (trackProfile boxTrack) 1200 2).1

/-- The last of four packets is refused. -/
def partialAttempt : Conn := attempt boxSender 2 3

/-- The flush that follows finds the path better and adds one parity symbol. -/
def retriedAttempt : Conn := attempt partialAttempt 1 3

def parityReceive : ReceiveEnv := { quietReceive with codec := Repetition.codec }

def boxRun (packets : List (Sent Datagram)) : List ReceiveOp :=
  subscribing defaultLimits boxTrack ++ packets.map (.datagram parityReceive)

theorem sentFor_attempt
    (hpacket : packet ∈ (attempt c paritySymbols refused).datagrams.drop c.datagrams.length) :
    SentFor Repetition.codec boxObject boxGeometry packet := by
  obtain ⟨packets, hattempt, _⟩ := publishDatagramToConn_symbols
    (parityConn paritySymbols refused) c boxObject 1200 2
  unfold attempt at hpacket
  rw [show trackProfile boxTrack = trackProfile boxObject.trackId from rfl, hattempt,
    List.drop_left] at hpacket
  exact .published rfl (by decide +kernel) hattempt hpacket

theorem along_boxRun (hsent : ∀ packet ∈ packets,
      SentFor Repetition.codec boxObject boxGeometry packet) :
    Machine.Along (receive defaultLimits)
      (FedBy Repetition.codec boxObject boxGeometry ⟨1, 1, 0⟩) (init 0 defaultLimits)
      (boxRun packets) := by
  refine along_fedBy _ _ fun env datagram hmem => ?_
  simp only [boxRun, subscribing, List.mem_append, List.mem_cons, List.mem_map,
    List.not_mem_nil, reduceCtorEq, or_false, false_or, ReceiveOp.datagram.injEq] at hmem
  obtain ⟨packet, hpacket, rfl, rfl⟩ := hmem
  exact ⟨rfl, hsent packet hpacket⟩

/-- A parity symbol and the second source symbol of the first attempt. -/
def ownPackets : List (Sent Datagram) := (partialAttempt.datagrams.drop 1).take 2

theorem decoded_from_one_attempt :
    ∃ data, (⟨1, 1, 0⟩, data) ∈ (receiveAll defaultLimits (init 0 defaultLimits)
        (boxRun ownPackets)).payloads ∧
      data = boxObject.data ∧ data.length = boxObject.size := by
  have hdelivered : (⟨1, 1, 0⟩, boxObject.data) ∈ (receiveAll defaultLimits
      (init 0 defaultLimits) (boxRun ownPackets)).payloads := by decide +kernel
  refine ⟨boxObject.data, hdelivered, run_delivers_published Repetition.recovers_codec 0
    defaultLimits (along_boxRun fun packet hpacket => ?_) ?_ hdelivered⟩
  · exact sentFor_attempt (c := boxSender)
      (List.mem_of_mem_drop (List.mem_of_mem_take hpacket))
  · decide +kernel

/-- The parity symbol of the second attempt meets the second source symbol of the first. -/
def mixedPackets : List (Sent Datagram) :=
  ((retriedAttempt.datagrams.drop partialAttempt.datagrams.length).drop 2).take 1 ++
    (partialAttempt.datagrams.drop 1).take 1

theorem mixed_attempts_corrupt :
    Machine.Along (receive defaultLimits)
      (FedBy Repetition.codec boxObject boxGeometry ⟨1, 1, 0⟩) (init 0 defaultLimits)
      (boxRun mixedPackets) ∧
    ∃ data, (⟨1, 1, 0⟩, data) ∈ (receiveAll defaultLimits (init 0 defaultLimits)
        (boxRun mixedPackets)).payloads ∧ data ≠ boxObject.data := by
  refine ⟨?_, dataBlock boxObject.data 1200 1 ++ (dataBlock boxObject.data 1200 1).take 300,
    ?_⟩
  · refine along_boxRun fun packet hpacket => ?_
    cases List.mem_append.mp hpacket with
    | inl hsecond =>
        exact sentFor_attempt (List.mem_of_mem_drop (List.mem_of_mem_take hsecond))
    | inr hfirst =>
        exact sentFor_attempt (c := boxSender)
          (List.mem_of_mem_drop (List.mem_of_mem_take hfirst))
  · decide +kernel

end Conn

end Qlinq
