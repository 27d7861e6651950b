import Qlinq.DirectTunnel
import Qlinq.Lib.OneSlot

namespace Qlinq

/-! The packets that a direct tunnel publishes. -/

namespace TunnelMark

/-- What happens to the place of the pending packet. -/
def slotMark : TunnelMark → OneSlot.Mark Bytes
  | .read data => if validPacket data then .put data else .miss
  | .event told => if DirectTunnel.losesPeer told then .clear else .keep
  | .published _ data => .take data

def sequence? : TunnelMark → Option Nat
  | .published sequence _ => some sequence
  | _ => none

/-- An event that leaves what is pending alone. -/
def IsIdle (mark : TunnelMark) : Prop :=
  ∃ told, mark = .event told ∧ DirectTunnel.losesPeer told = false

theorem isIdle_of_keep {mark : TunnelMark} (hkeep : mark.slotMark = .keep) : mark.IsIdle := by
  cases mark with
  | read data =>
      simp only [slotMark] at hkeep
      split at hkeep <;> cases hkeep
  | event told =>
      simp only [slotMark] at hkeep
      split at hkeep
      · cases hkeep
      · next hpeer => exact ⟨told, rfl, Bool.eq_false_iff.mpr hpeer⟩
  | published sequence data => cases hkeep

theorem idle_of_keeps {marks : List TunnelMark}
    (hkeep : ∀ mark ∈ marks.map slotMark, mark = .keep) : ∀ mark ∈ marks, mark.IsIdle := by
  intro mark hmark
  exact isIdle_of_keep (hkeep _ (List.mem_map_of_mem hmark))

theorem read_of_put {mark : TunnelMark} (hput : mark.slotMark = .put data) :
    mark = .read data ∧ validPacket data = true := by
  cases mark with
  | read other =>
      simp only [slotMark] at hput
      split at hput
      · next hvalid =>
          cases hput
          exact ⟨rfl, hvalid⟩
      · cases hput
  | event told =>
      simp only [slotMark] at hput
      split at hput <;> cases hput
  | published sequence other => cases hput

theorem published_of_take {mark : TunnelMark} (htake : mark.slotMark = .take data) :
    ∃ sequence, mark = .published sequence data := by
  cases mark with
  | read other =>
      simp only [slotMark] at htake
      split at htake <;> cases htake
  | event told =>
      simp only [slotMark] at htake
      split at htake <;> cases htake
  | published sequence other =>
      cases htake
      exact ⟨sequence, rfl⟩

theorem event_of_clear {mark : TunnelMark} (hclear : mark.slotMark = .clear) :
    ∃ told, mark = .event told ∧ DirectTunnel.losesPeer told = true := by
  cases mark with
  | read other =>
      simp only [slotMark] at hclear
      split at hclear <;> cases hclear
  | event told =>
      simp only [slotMark] at hclear
      split at hclear
      · next hpeer => exact ⟨told, rfl, hpeer⟩
      · cases hclear
  | published sequence other => cases hclear

end TunnelMark

namespace DirectTunnel

/-- The marks tell what is pending, and number what was published. -/
structure Sending (t : DirectTunnel) : Prop where
  slot : Replay.replay OneSlot.step none (t.marks.map TunnelMark.slotMark) = some t.pending
  numbers : t.marks.filterMap TunnelMark.sequence? = (List.range t.sent).map (· + 1)

variable {t : DirectTunnel}

/-- One more mark, which does not publish. -/
theorem Sending.mark (hsending : t.Sending) {t' : DirectTunnel} {mark : TunnelMark}
    (hmarks : t'.marks = t.marks ++ [mark])
    (hslot : OneSlot.step t.pending mark.slotMark = some t'.pending)
    (hnumber : mark.sequence? = none) (hsent : t'.sent = t.sent) : t'.Sending where
  slot := by
    rw [hmarks, List.map_append, List.map_singleton, Replay.replay_snoc, hsending.slot]
    exact hslot
  numbers := by
    rw [hmarks, List.filterMap_append, hsending.numbers, List.filterMap_cons_none hnumber, hsent]
    exact List.append_nil _

/-- What is pending is published. -/
theorem Sending.published (hsending : t.Sending) (hpending : t.pending = some data)
    {t' : DirectTunnel} (hmarks : t'.marks = t.marks ++ [.published (t.sent + 1) data])
    (hnone : t'.pending = none) (hsent : t'.sent = t.sent + 1) : t'.Sending where
  slot := by
    rw [hmarks, List.map_append, List.map_singleton, Replay.replay_snoc, hsending.slot, hpending,
      hnone]
    exact if_pos rfl
  numbers := by
    rw [hmarks, List.filterMap_append, hsending.numbers, hsent, List.range_succ, List.map_append]
    rfl

theorem sending_onEvent (hsending : t.Sending) (event : QlinqEvent) :
    (t.onEvent event).Sending := by
  unfold onEvent
  extract_lets marked
  have hrecord : isRecordOf 0 t.profile event = true → losesPeer event = false := by
    intro hrecord
    have htype : event.type = .record := by
      simp only [isRecordOf, isRecordAt, Bool.and_eq_true, beq_iff_eq] at hrecord
      exact hrecord.1.1
    rw [losesPeer, htype]
    rfl
  split
  · next hrecordOf =>
      have hkeep : OneSlot.step t.pending (TunnelMark.event event).slotMark = some t.pending := by
        rw [TunnelMark.slotMark, hrecord hrecordOf]
        rfl
      split
      · exact hsending.mark rfl hkeep rfl rfl
      · exact hsending.mark rfl hkeep rfl rfl
  split
  · next hpeer =>
      refine hsending.mark rfl ?_ rfl rfl
      rw [TunnelMark.slotMark, hpeer]
      rfl
  · next hpeer =>
      refine hsending.mark rfl ?_ rfl rfl
      rw [TunnelMark.slotMark, if_neg hpeer]
      rfl

/-- The rest of the state is of no account. -/
theorem Sending.same (hsending : t.Sending) {t' : DirectTunnel} (hmarks : t'.marks = t.marks)
    (hpending : t'.pending = t.pending) (hsent : t'.sent = t.sent) : t'.Sending where
  slot := by rw [hmarks, hpending]; exact hsending.slot
  numbers := by rw [hmarks, hsent]; exact hsending.numbers

theorem sending_publish (hsending : t.Sending) (hpending : t.pending = some data)
    (answer : PublishResult) : (t.publish data answer).1.Sending := by
  unfold publish
  cases hsend : t.facade.sendRecord 0 publisherId answer with
  | mk facade result =>
      cases result with
      | sent => exact hsending.published hpending rfl rfl rfl
      | buffered => exact hsending.published hpending rfl rfl rfl
      | partialDelivery => exact hsending.published hpending rfl rfl rfl
      | noSubscribers => exact hsending.same rfl rfl rfl
      | wouldBlock => exact hsending.same rfl rfl rfl
      | invalid => exact hsending.same rfl rfl rfl
      | failed => exact hsending.same rfl rfl rfl

theorem sending_sendRound (hsending : t.Sending) (read : TunRead) (answer : PublishResult) :
    (t.sendRound read answer).1.Sending := by
  unfold sendRound
  split
  · next data hpending => exact sending_publish hsending hpending answer
  next hnone =>
  cases read with
  | interrupted => exact hsending
  | blocked => exact hsending
  | failed => exact hsending.same rfl rfl rfl
  | packet data =>
      simp only
      split
      · exact hsending.same rfl rfl rfl
      split
      · next hvalid =>
          refine sending_publish ?_ rfl answer
          refine hsending.mark rfl ?_ rfl rfl
          rw [hnone, TunnelMark.slotMark, if_pos hvalid]
          rfl
      · next hinvalid =>
          refine hsending.mark rfl ?_ rfl rfl
          rw [hnone, TunnelMark.slotMark, if_neg hinvalid]
          rfl

theorem steps_sending : Steps Sending where
  service := fun _ hsending => hsending.same rfl rfl rfl
  stop := fun hsending => hsending.same rfl rfl rfl
  takeEvent := by
    intro t t' hsending htake
    unfold takeEvent at htake
    split at htake
    · cases htake
    · next events event hnext =>
        have htaken : Sending { t with facade := t.facade.apply .nextEvent } :=
          hsending.same rfl rfl rfl
        cases htake
        exact (sending_onEvent htaken event).same rfl rfl rfl
  flush := fun _ hsending => hsending.same rfl rfl rfl
  sendRound := fun read answer hsending => sending_sendRound hsending read answer

theorem sending_run (s : TunnelStart) (turns : List TunnelTurn) : (run s turns).Sending :=
  steps_sending.run s turns ⟨rfl, rfl⟩

/-- The packets published are numbered from one on.  Each is a valid packet of the interface
that was read since the packet before it, and no subscriber was lost in between.  A valid packet
that was read is published next, unless a subscriber is lost before that or it is still
pending. -/
theorem published_once (s : TunnelStart) (turns : List TunnelTurn) :
    (run s turns).marks.filterMap TunnelMark.sequence? =
        (List.range (run s turns).sent).map (· + 1) ∧
      (∀ before after sequence data,
        (run s turns).marks = before ++ .published sequence data :: after →
          validPacket data = true ∧ ∃ earlier later, before = earlier ++ .read data :: later ∧
            ∀ mark ∈ later, mark.IsIdle) ∧
      ∀ before after data, (run s turns).marks = before ++ .read data :: after →
        validPacket data = true →
        ((run s turns).pending = some data ∧ ∀ mark ∈ after, mark.IsIdle) ∨
          ∃ kept next rest, after = kept ++ next :: rest ∧ (∀ mark ∈ kept, mark.IsIdle) ∧
            ((∃ sequence, next = .published sequence data) ∨
              ∃ event, next = .event event ∧ losesPeer event = true) := by
  have hsending := sending_run s turns
  have hslot := hsending.slot
  refine ⟨hsending.numbers, ?_, ?_⟩
  · intro before after sequence data hmarks
    rw [hmarks, List.map_append, List.map_cons] at hslot
    obtain ⟨earlier, later, hsplit, hkeep⟩ := OneSlot.take_after_put hslot
    obtain ⟨first, rest, rfl, hfirst, hrest⟩ := List.map_eq_append_iff.mp hsplit
    obtain ⟨mark, last, rfl, hput, hlast⟩ := List.map_eq_cons_iff.mp hrest
    obtain ⟨rfl, hvalid⟩ := TunnelMark.read_of_put hput
    refine ⟨hvalid, first, last, rfl, ?_⟩
    rw [← hlast] at hkeep
    exact TunnelMark.idle_of_keeps hkeep
  · intro before after data hmarks hvalid
    have hput : (TunnelMark.read data).slotMark = .put data := if_pos hvalid
    rw [hmarks, List.map_append, List.map_cons, hput] at hslot
    cases OneSlot.put_settles hslot with
    | inl hheld => exact .inl ⟨hheld.1, TunnelMark.idle_of_keeps hheld.2⟩
    | inr hgone =>
        obtain ⟨kept, rest, hkept, hsplit⟩ := hgone
        cases hsplit with
        | inl htake =>
            obtain ⟨first, last, rfl, hfirst, hlast⟩ := List.map_eq_append_iff.mp htake
            obtain ⟨mark, later, rfl, hmark, -⟩ := List.map_eq_cons_iff.mp hlast
            rw [← hfirst] at hkept
            exact .inr ⟨first, mark, later, rfl, TunnelMark.idle_of_keeps hkept,
              .inl (TunnelMark.published_of_take hmark)⟩
        | inr hclear =>
            obtain ⟨first, last, rfl, hfirst, hlast⟩ := List.map_eq_append_iff.mp hclear
            obtain ⟨mark, later, rfl, hmark, -⟩ := List.map_eq_cons_iff.mp hlast
            rw [← hfirst] at hkept
            exact .inr ⟨first, mark, later, rfl, TunnelMark.idle_of_keeps hkept,
              .inr (TunnelMark.event_of_clear hmark)⟩

end DirectTunnel

end Qlinq
