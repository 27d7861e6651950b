import Mathlib.Data.List.Sort
import Mathlib.Data.List.SplitBy
import Mathlib.Data.List.TakeWhile
import Qlinq.AckSoundness

namespace Qlinq

/-! The cumulative ACKs of a set of windows: one for each run of complete windows
of one group, in the order of their objects. -/

namespace ObjectGapState

/-- Active windows span objects and no two of them share one. -/
structure Apart (windows : List RecoveryWindow) : Prop where
  spans : ∀ window ∈ windows, window.firstObjectId ≤ window.finalObjectId
  apart : windows.Pairwise fun left right =>
    left.finalObjectId < right.firstObjectId ∨ right.finalObjectId < left.firstObjectId

def sameGroup (left right : RecoveryWindow) : Bool := left.groupId == right.groupId

/-- The windows in the order of their objects. -/
def inOrder (windows : List RecoveryWindow) : List RecoveryWindow :=
  windows.mergeSort fun left right => left.firstObjectId ≤ right.firstObjectId

/-- The complete windows in front of the first incomplete one, a list for each
maximal run of one group. -/
def completeRuns (ordered : List RecoveryWindow) : List (List RecoveryWindow) :=
  (ordered.takeWhile RecoveryWindow.complete).splitBy sameGroup

/-- The ACK that covers a run. -/
def runAck (a : TrackAlias) (run : List RecoveryWindow) : Option TrackCheckpointAck :=
  run.getLast?.map fun last =>
    { trackAlias := a, groupId := last.groupId, finalObjectId := last.finalObjectId }

/-- `ordered` lists the windows in the order of their objects. -/
structure Orders (ordered windows : List RecoveryWindow) : Prop where
  perm : windows.Perm ordered
  spans : ∀ window ∈ ordered, window.firstObjectId ≤ window.finalObjectId
  ordered : ordered.Pairwise fun earlier later => earlier.finalObjectId < later.firstObjectId

theorem Apart.orders {windows : List RecoveryWindow} (hapart : Apart windows) :
    Orders (inOrder windows) windows := by
  have hperm := List.mergeSort_perm windows
    (fun left right => decide (left.firstObjectId ≤ right.firstObjectId))
  have hspans : ∀ window ∈ inOrder windows, window.firstObjectId ≤ window.finalObjectId :=
    fun window hwindow => hapart.spans window (hperm.mem_iff.mp hwindow)
  have hsorted : (inOrder windows).Pairwise fun left right =>
      left.firstObjectId ≤ right.firstObjectId := by
    have htrans : ∀ left middle right : RecoveryWindow,
        decide (left.firstObjectId ≤ middle.firstObjectId) = true →
        decide (middle.firstObjectId ≤ right.firstObjectId) = true →
          decide (left.firstObjectId ≤ right.firstObjectId) = true := by
      intro left middle right hleft hright
      simp only [decide_eq_true_eq] at hleft hright ⊢
      omega
    have htotal : ∀ left right : RecoveryWindow,
        (decide (left.firstObjectId ≤ right.firstObjectId) ||
          decide (right.firstObjectId ≤ left.firstObjectId)) = true := by
      intro left right
      simp only [Bool.or_eq_true, decide_eq_true_eq]
      omega
    simpa [inOrder] using List.pairwise_mergeSort htrans htotal windows
  have hdisjoint : (inOrder windows).Pairwise fun left right =>
      left.finalObjectId < right.firstObjectId ∨ right.finalObjectId < left.firstObjectId :=
    (hperm.pairwise_iff fun hleft => hleft.symm).mpr hapart.apart
  refine ⟨hperm.symm, hspans, ?_⟩
  refine (hsorted.and hdisjoint).imp_of_mem ?_
  intro left right hleft hright hboth
  have hspan := hspans right hright
  omega

theorem Orders.tail (horders : Orders (front ++ rest) windows) :
    Orders rest rest where
  perm := List.Perm.refl rest
  spans := fun window hwindow => horders.spans window (List.mem_append_right front hwindow)
  ordered := (List.pairwise_append.mp horders.ordered).2.1

/-! ### The two searches -/

theorem earliest_eq_none_iff {windows : List RecoveryWindow} :
    earliest windows = none ↔ windows = [] := by
  cases windows with
  | nil => simp [earliest]
  | cons window rest =>
      simp only [earliest]
      split
      · simp
      · split <;> simp

/-- The minimum search finds the head of the ordered windows, wherever it sits. -/
theorem earliest_eq_head? (horders : Orders ordered windows) :
    earliest windows = ordered.head? := by
  cases hearliest : earliest windows with
  | none =>
      obtain rfl := earliest_eq_none_iff.mp hearliest
      obtain rfl := List.nil_perm.mp horders.perm
      rfl
  | some first =>
      obtain ⟨hmem, hleast⟩ := earliest_spec hearliest
      cases ordered with
      | nil => exact absurd (horders.perm.mem_iff.mp hmem) List.not_mem_nil
      | cons head rest =>
          rw [List.head?_cons]
          rcases List.mem_cons.mp (horders.perm.mem_iff.mp hmem) with rfl | hlater
          · rfl
          · have hhead := hleast head (horders.perm.mem_iff.mpr List.mem_cons_self)
            have hspan := horders.spans head List.mem_cons_self
            have hbefore := List.rel_of_pairwise_cons horders.ordered hlater
            omega

/-- The windows of the run that goes on after a window of the group. -/
def runOn (groupId : Nat) (window : RecoveryWindow) : Bool :=
  window.complete && window.groupId == groupId

/-- The search for the last window of a run, from any window of it. -/
theorem completedThrough_eq {front rest windows : List RecoveryWindow}
    (horders : Orders (front ++ rest) windows) (groupId finalObjectId : Nat)
    (hfront : ∀ window ∈ front, window.firstObjectId ≤ finalObjectId)
    (hrest : ∀ window ∈ rest, finalObjectId < window.firstObjectId)
    {fuel : Nat} (hfuel : rest.length ≤ fuel) :
    completedThrough windows groupId fuel finalObjectId =
      (((rest.takeWhile (runOn groupId)).getLast?).map
        RecoveryWindow.finalObjectId).getD finalObjectId := by
  induction fuel generalizing front rest finalObjectId with
  | zero =>
      obtain rfl := List.eq_nil_of_length_eq_zero (Nat.le_zero.mp hfuel)
      rfl
  | succ fuel ih =>
      have hbehind : (windows.filter fun window => finalObjectId < window.firstObjectId).Perm
          rest := by
        have hperm := horders.perm.filter fun window =>
          decide (finalObjectId < window.firstObjectId)
        have hnone : (front.filter fun window => finalObjectId < window.firstObjectId) = [] := by
          rw [List.filter_eq_nil_iff]
          intro window hwindow
          simpa using hfront window hwindow
        have hall : (rest.filter fun window => finalObjectId < window.firstObjectId) = rest := by
          rw [List.filter_eq_self]
          intro window hwindow
          simpa using hrest window hwindow
        rwa [List.filter_append, hnone, hall, List.nil_append] at hperm
      have htail := horders.tail
      have hnext : earliest (windows.filter fun window => finalObjectId < window.firstObjectId) =
          rest.head? := earliest_eq_head? ⟨hbehind, htail.spans, htail.ordered⟩
      rw [completedThrough, hnext]
      cases rest with
      | nil => rfl
      | cons next later =>
          rw [List.head?_cons]
          by_cases hon : runOn groupId next = true
          · have hspan := htail.spans next List.mem_cons_self
            have hmoved : front ++ next :: later = (front ++ [next]) ++ later := by simp
            rw [hmoved] at horders
            have hrec := ih horders next.finalObjectId
              (by
                intro window hwindow
                rcases List.mem_append.mp hwindow with hold | hnew
                · have hearlier := hfront window hold
                  have hlater := hrest next List.mem_cons_self
                  omega
                · obtain rfl := List.mem_singleton.mp hnew
                  exact hspan)
              (fun window hwindow => List.rel_of_pairwise_cons htail.ordered hwindow)
              (by simpa using hfuel)
            rw [List.takeWhile_cons_of_pos hon]
            simp only [runOn] at hon
            simp only [hon, if_true]
            rw [hrec, List.getLast?_cons]
            cases (later.takeWhile (runOn groupId)).getLast? <;> rfl
          · rw [List.takeWhile_cons_of_neg hon]
            simp only [runOn] at hon
            simp [hon]

/-! ### One run -/

theorem takeWhile_complete (groupId : Nat) (rest : List RecoveryWindow) :
    rest.takeWhile RecoveryWindow.complete =
      rest.takeWhile (runOn groupId) ++
        (rest.dropWhile (runOn groupId)).takeWhile RecoveryWindow.complete := by
  induction rest with
  | nil => rfl
  | cons next later ih =>
      by_cases hon : runOn groupId next = true
      · have hcomplete : next.complete = true := (Bool.and_eq_true_iff.mp hon).1
        rw [List.takeWhile_cons_of_pos hon, List.dropWhile_cons_of_pos hon,
          List.takeWhile_cons_of_pos hcomplete, ih]
        rfl
      · rw [List.takeWhile_cons_of_neg hon, List.dropWhile_cons_of_neg hon, List.nil_append]

theorem group_of_runOn {groupId : Nat} {rest : List RecoveryWindow}
    (hwindow : window ∈ rest.takeWhile (runOn groupId)) : window.groupId = groupId := by
  have hon := List.mem_takeWhile_imp hwindow
  exact eq_of_beq (Bool.and_eq_true_iff.mp hon).2

/-- The first run starts with the first window and ends where the group changes or
a window is incomplete. -/
theorem completeRuns_cons (hcomplete : first.complete = true) (rest : List RecoveryWindow) :
    completeRuns (first :: rest) =
      (first :: rest.takeWhile (runOn first.groupId)) ::
        completeRuns (rest.dropWhile (runOn first.groupId)) := by
  have hgroup : ∀ window ∈ first :: rest.takeWhile (runOn first.groupId),
      window.groupId = first.groupId := by
    intro window hwindow
    rcases List.mem_cons.mp hwindow with rfl | hwindow
    · rfl
    · exact group_of_runOn hwindow
  have hchain : (first :: rest.takeWhile (runOn first.groupId)).IsChain
      fun left right => sameGroup left right = true := by
    apply List.Pairwise.isChain
    apply List.Pairwise.imp_of_mem (R := fun _ _ => True)
    · intro left right hleft hright _
      rw [sameGroup, hgroup left hleft, hgroup right hright]
      exact beq_self_eq_true _
    · exact List.pairwise_of_forall fun _ _ => trivial
  rw [completeRuns, List.takeWhile_cons_of_pos hcomplete, takeWhile_complete first.groupId,
    ← List.cons_append, List.splitBy_append ?_, List.splitBy_of_isChain (List.cons_ne_nil _ _)
      hchain]
  · rfl
  · intro last hlast next hnext
    have hlast := hgroup last (List.mem_of_mem_getLast? hlast)
    have hhead : next.complete = true ∧ runOn first.groupId next = false := by
      cases hdrop : rest.dropWhile (runOn first.groupId) with
      | nil => simp [hdrop] at hnext
      | cons head later =>
          have hoff : ¬runOn first.groupId head = true := by
            have hne : rest.dropWhile (runOn first.groupId) ≠ [] := by simp [hdrop]
            have := List.head_dropWhile_not (runOn first.groupId) hne
            simpa [hdrop] using this
          by_cases hhere : head.complete = true
          · rw [hdrop, List.takeWhile_cons_of_pos hhere] at hnext
            obtain rfl : head = next := by simpa using hnext
            exact ⟨hhere, by simpa using hoff⟩
          · rw [hdrop, List.takeWhile_cons_of_neg hhere] at hnext
            simp at hnext
    rw [sameGroup, hlast, beq_eq_false_iff_ne]
    intro heq
    rw [runOn, hhead.1, ← heq, beq_self_eq_true] at hhead
    simp at hhead

theorem completeRuns_of_incomplete (hcomplete : first.complete = false)
    (rest : List RecoveryWindow) : completeRuns (first :: rest) = [] := by
  rw [completeRuns, List.takeWhile_cons_of_neg (by simp [hcomplete])]
  rfl

/-- Where the first run ends. -/
theorem run_last (horders : Orders (first :: rest) windows) :
    ∃ last, (first :: rest.takeWhile (runOn first.groupId)).getLast? = some last ∧
      last.finalObjectId =
        completedThrough windows first.groupId windows.length first.finalObjectId ∧
      (∀ window ∈ first :: rest.takeWhile (runOn first.groupId),
        window.groupId = first.groupId ∧ window.finalObjectId ≤ last.finalObjectId) ∧
      ∀ window ∈ rest.dropWhile (runOn first.groupId),
        last.finalObjectId < window.firstObjectId := by
  have hsplit : first :: rest = (first :: rest.takeWhile (runOn first.groupId)) ++
      rest.dropWhile (runOn first.groupId) := by
    rw [List.cons_append, List.takeWhile_append_dropWhile]
  have hfirst := horders.spans first List.mem_cons_self
  have hsingle : Orders ([first] ++ rest) windows := horders
  have hlength : rest.length ≤ windows.length := by
    rw [horders.perm.length_eq]
    exact Nat.le_succ _
  have hthrough := completedThrough_eq hsingle first.groupId first.finalObjectId
    (by simpa using hfirst)
    (fun window hwindow => List.rel_of_pairwise_cons horders.ordered hwindow) hlength
  obtain ⟨last, hlast⟩ : ∃ last,
      (first :: rest.takeWhile (runOn first.groupId)).getLast? = some last :=
    Option.isSome_iff_exists.mp (by simp)
  have hordered := horders.ordered
  rw [hsplit] at hordered
  obtain ⟨hrun, -, hacross⟩ := List.pairwise_append.mp hordered
  have hlastMem := List.mem_of_getLast? hlast
  refine ⟨last, hlast, ?_, ?_, ?_⟩
  · rw [hthrough]
    rw [List.getLast?_cons] at hlast
    cases hmore : (rest.takeWhile (runOn first.groupId)).getLast? with
    | none =>
        obtain rfl : first = last := by simpa [hmore] using hlast
        rfl
    | some other =>
        obtain rfl : other = last := by simpa [hmore] using hlast
        rfl
  · intro window hwindow
    constructor
    · rcases List.mem_cons.mp hwindow with rfl | hwindow
      · rfl
      · exact group_of_runOn hwindow
    · obtain ⟨init, hinit⟩ := List.getLast?_eq_some_iff.mp hlast
      rw [hinit] at hrun hwindow
      rcases List.mem_append.mp hwindow with hearlier | hsame
      · have hbefore := (List.pairwise_append.mp hrun).2.2 window hearlier last
          (List.mem_singleton_self last)
        have hspan := horders.spans last (hsplit ▸ List.mem_append_left _ hlastMem)
        omega
      · rw [List.mem_singleton.mp hsame]
  · intro window hwindow
    exact hacross last hlastMem window hwindow

/-- Dropping what an ACK covers leaves the windows behind the run. -/
theorem Orders.drop {run later windows : List RecoveryWindow}
    (horders : Orders (run ++ later) windows) {groupId finalObjectId : Nat}
    (hrun : ∀ window ∈ run, window.groupId = groupId ∧ window.finalObjectId ≤ finalObjectId)
    (hlater : ∀ window ∈ later, finalObjectId < window.firstObjectId) :
    Orders later (windows.filter fun window =>
        !(window.groupId == groupId && window.finalObjectId ≤ finalObjectId)) ∧
      (windows.filter fun window =>
        !(window.groupId == groupId && window.finalObjectId ≤ finalObjectId)) =
        windows.filter fun window => !decide (window ∈ run) := by
  have htail := horders.tail
  have hbehind : ∀ window ∈ later, finalObjectId < window.finalObjectId := by
    intro window hwindow
    have hspan := htail.spans window hwindow
    have hfirst := hlater window hwindow
    omega
  refine ⟨⟨?_, htail.spans, htail.ordered⟩, ?_⟩
  · have hperm := horders.perm.filter fun window : RecoveryWindow =>
      !(window.groupId == groupId && window.finalObjectId ≤ finalObjectId)
    have hnone : (run.filter fun window =>
        !(window.groupId == groupId && window.finalObjectId ≤ finalObjectId)) = [] := by
      rw [List.filter_eq_nil_iff]
      intro window hwindow
      simp [(hrun window hwindow).1, (hrun window hwindow).2]
    have hall : (later.filter fun window =>
        !(window.groupId == groupId && window.finalObjectId ≤ finalObjectId)) = later := by
      rw [List.filter_eq_self]
      intro window hwindow
      simp [Nat.not_le.mpr (hbehind window hwindow)]
    rwa [List.filter_append, hnone, hall, List.nil_append] at hperm
  · apply List.filter_congr
    intro window hwindow
    congr 1
    rcases List.mem_append.mp (horders.perm.mem_iff.mp hwindow) with hcovered | hbeyond
    · simp [hcovered, (hrun window hcovered).1, (hrun window hcovered).2]
    · have hover := hbehind window hbeyond
      have houtside : window ∉ run := by
        intro hcovered
        have := (hrun window hcovered).2
        omega
      simp [houtside, Nat.not_le.mpr hover]

end ObjectGapState

namespace Conn

open ObjectGapState

/-- The connection after an ACK: covered repairs and windows are gone. -/
def covered (c : Conn) (a : TrackAlias) (groupId finalObjectId : Nat) : Conn :=
  let retired := (c.withAck a groupId finalObjectId).retireRecoveryThrough a groupId finalObjectId
  retired.setObjectGap a ((retired.objectGap a).dropWindowsThrough groupId finalObjectId)

theorem getState_of_windows {c : Conn} (hwindows : (c.objectGap a).recoveryWindows ≠ []) :
    (c.receiveSubscriptions.getState a).isSome := by
  by_contra hnone
  rw [Option.not_isSome_iff_eq_none] at hnone
  simp [objectGap, hnone] at hwindows

theorem objectGap_covered {c : Conn} (hwindows : (c.objectGap a).recoveryWindows ≠ [])
    (groupId finalObjectId : Nat) :
    (c.covered a groupId finalObjectId).objectGap a =
      ((c.objectGap a).retirePending groupId finalObjectId).dropWindowsThrough groupId
        finalObjectId := by
  have hstate := getState_of_windows hwindows
  have hretired : ((c.withAck a groupId finalObjectId).retireRecoveryThrough a groupId
      finalObjectId).objectGap a = (c.objectGap a).retirePending groupId finalObjectId := by
    have hset := objectGap_setObjectGap (c.withAck a groupId finalObjectId) a a
      ((c.objectGap a).retirePending groupId finalObjectId)
    rw [if_pos ⟨rfl, hstate⟩] at hset
    exact hset
  have hstate' : (((c.withAck a groupId finalObjectId).retireRecoveryThrough a groupId
      finalObjectId).receiveSubscriptions.getState a).isSome := by
    simp only [retireRecoveryThrough, setObjectGap, SubscriptionTable.getState_modifyState]
    simpa [withAck] using hstate
  rw [covered, objectGap_setObjectGap, if_pos ⟨rfl, hstate'⟩, hretired]

theorem recoveryWindows_covered {c : Conn} (hwindows : (c.objectGap a).recoveryWindows ≠ [])
    (groupId finalObjectId : Nat) :
    ((c.covered a groupId finalObjectId).objectGap a).recoveryWindows =
      (c.objectGap a).recoveryWindows.filter fun window =>
        !(window.groupId == groupId && window.finalObjectId ≤ finalObjectId) := by
  have hpending : ((c.objectGap a).retirePending groupId finalObjectId).recoveryWindows =
      (c.objectGap a).recoveryWindows := by
    unfold retirePending
    split <;> rfl
  rw [objectGap_covered hwindows, dropWindowsThrough, hpending]

theorem receiveFrame_covered (c : Conn) (a : TrackAlias) (groupId finalObjectId : Nat)
    (frame : ControlFrame) :
    (c.covered a groupId finalObjectId).receiveFrame a frame = c.receiveFrame a frame := by
  have hgeneration : (c.covered a groupId finalObjectId).receiveGeneration a =
      c.receiveGeneration a := by
    rw [covered, receiveGeneration_setObjectGap]
    exact receiveGeneration_setObjectGap (c.withAck a groupId finalObjectId) a a _
  rw [receiveFrame, hgeneration]
  rfl

/-- What one round of the loop does with the ordered windows. -/
inductive Round (a : TrackAlias) (c : Conn) (ordered : List RecoveryWindow) : Prop
  | rested (hruns : completeRuns ordered = [])
      (hround : ∀ fuel, acknowledgeRounds a (fuel + 1) c = (c, true))
  | blocked (hroom : c.streamCanAccept = false)
      (hround : ∀ fuel, acknowledgeRounds a (fuel + 1) c = (c, true))
  | failed (after : Conn) (hruns : completeRuns ordered ≠ [])
      (hfailed : after.closed.isSome ∨ c.checkpointCapable = false)
      (hcontrol : after.control = c.control) (hgap : after.objectGap a = c.objectGap a)
      (hround : ∀ fuel, acknowledgeRounds a (fuel + 1) c = (after, false))
  | acked (run later : List RecoveryWindow) (ack : TrackCheckpointAck)
      (hruns : completeRuns ordered = run :: completeRuns later)
      (hack : runAck a run = some ack) (hshorter : later.length < ordered.length)
      (hlater : Orders later
        ((c.covered a ack.groupId ack.finalObjectId).objectGap a).recoveryWindows)
      (hdropped : ((c.covered a ack.groupId ack.finalObjectId).objectGap a).recoveryWindows =
        (c.objectGap a).recoveryWindows.filter fun window => !decide (window ∈ run))
      (hround : ∀ fuel, acknowledgeRounds a (fuel + 1) c =
        acknowledgeRounds a fuel (c.covered a ack.groupId ack.finalObjectId))

theorem sendCheckpointAck_answer {c : Conn} (hroom : c.streamCanAccept = true)
    (a : TrackAlias) (groupId finalObjectId : Nat) :
    c.sendCheckpointAck a groupId finalObjectId = (c.withAck a groupId finalObjectId, true) ∨
      ∃ after, c.sendCheckpointAck a groupId finalObjectId = (after, false) ∧
        (after.closed.isSome ∨ c.checkpointCapable = false) ∧ after.control = c.control ∧
          after.objectGap a = c.objectGap a := by
  obtain ⟨hopen, -⟩ := Bool.and_eq_true_iff.mp hroom
  have hclosed : ¬c.closed.isSome = true := by simpa using hopen
  unfold sendCheckpointAck
  split
  · next hcapable => exact .inr ⟨c, rfl, .inr (by simpa using hcapable), rfl, rfl⟩
  · rw [writeControlFrame, if_neg hclosed]
    split
    · exact .inl rfl
    · refine .inr ⟨_, rfl, .inl (closed_quiclyClose _ _ _), ?_, ?_⟩
      · simp only [quiclyClose]
        split <;> rfl
      · simp only [quiclyClose]
        split <;> rfl

theorem round {c : Conn} (horders : Orders ordered (c.objectGap a).recoveryWindows) :
    Round a c ordered := by
  have hearliest := earliest_eq_head? horders
  cases ordered with
  | nil =>
      refine .rested rfl fun fuel => ?_
      simp [acknowledgeRounds, hearliest]
  | cons first rest =>
      rw [List.head?_cons] at hearliest
      cases hcomplete : first.complete with
      | false =>
          refine .rested (completeRuns_of_incomplete hcomplete rest) fun fuel => ?_
          simp [acknowledgeRounds, hearliest, hcomplete]
      | true =>
          cases hroom : c.streamCanAccept with
          | false =>
              refine .blocked hroom fun fuel => ?_
              simp [acknowledgeRounds, hearliest, hcomplete, hroom]
          | true =>
              -- The ACK ends with the run the first window starts.
              let run := first :: rest.takeWhile (runOn first.groupId)
              let later := rest.dropWhile (runOn first.groupId)
              let finalObjectId := completedThrough (c.objectGap a).recoveryWindows first.groupId
                (c.objectGap a).recoveryWindows.length first.finalObjectId
              have hruns : completeRuns (first :: rest) = run :: completeRuns later :=
                completeRuns_cons hcomplete rest
              have hround : ∀ fuel after sent,
                  c.sendCheckpointAck a first.groupId finalObjectId = (after, sent) →
                  acknowledgeRounds a (fuel + 1) c =
                    if sent then
                      let c := after.retireRecoveryThrough a first.groupId finalObjectId
                      acknowledgeRounds a fuel (c.setObjectGap a
                        ((c.objectGap a).dropWindowsThrough first.groupId finalObjectId))
                    else
                      (after, false) := by
                intro fuel after sent hanswer
                simp only [finalObjectId] at hanswer
                simp only [acknowledgeRounds, hearliest, hcomplete, hroom, finalObjectId,
                  hanswer]
                cases sent <;> rfl
              rcases sendCheckpointAck_answer hroom a first.groupId finalObjectId with
                hsent | ⟨after, hsent, hfailed, hcontrol, hgap⟩
              · obtain ⟨last, hlast, hfinal, hrun, hlater⟩ := run_last horders
                have hwindows : (c.objectGap a).recoveryWindows ≠ [] := by
                  intro hempty
                  rw [hempty] at horders
                  exact List.cons_ne_nil _ _ (List.nil_perm.mp horders.perm)
                have hsplit : first :: rest = run ++ later := by
                  rw [List.cons_append, List.takeWhile_append_dropWhile]
                have horders' := horders
                rw [hsplit] at horders'
                obtain ⟨hdropped, hfilter⟩ := horders'.drop hrun hlater
                have hcovered := recoveryWindows_covered hwindows first.groupId
                  last.finalObjectId
                have hgroup := (hrun last (List.mem_of_getLast? hlast)).1
                refine .acked run later
                  { trackAlias := a
                    groupId := first.groupId
                    finalObjectId := last.finalObjectId } hruns ?_ ?_ ?_ ?_ fun fuel => ?_
                · simp [run, runAck, hlast, hgroup]
                · rw [hsplit, List.length_append]
                  simp [run]
                · rw [hcovered]
                  exact hdropped
                · rw [hcovered]
                  exact hfilter
                · rw [hround fuel _ _ hsent, if_pos rfl, hfinal]
                  rfl
              · refine .failed after ?_ hfailed hcontrol hgap fun fuel => ?_
                · rw [hruns]
                  exact List.cons_ne_nil _ _
                · exact hround fuel after false hsent

/-! ### The whole loop -/

/-- `runs` are acknowledged up to `later`, one ACK for each run. -/
structure Acknowledges (a : TrackAlias) (c : Conn) (runs acked later : List (List RecoveryWindow))
    (result : Conn × Bool) : Prop where
  runs : runs = acked ++ later
  control : result.1.control = c.control ++ (acked.filterMap (runAck a)).map fun ack =>
    c.receiveFrame a (ControlFrame.trackCheckpointAck ack)
  windows : (result.1.objectGap a).recoveryWindows =
    (c.objectGap a).recoveryWindows.filter fun window => !decide (window ∈ acked.flatten)
  stopped : later ≠ [] → result.1.streamCanAccept = false ∨ c.checkpointCapable = false
  failed : result.2 = false → result.1.closed.isSome ∨ c.checkpointCapable = false

theorem Acknowledges.none {c : Conn} {runs : List (List RecoveryWindow)}
    (hcontrol : after.control = c.control) (hgap : after.objectGap a = c.objectGap a)
    (hstopped : runs ≠ [] → after.streamCanAccept = false ∨ c.checkpointCapable = false)
    (hfailed : ok = false → after.closed.isSome ∨ c.checkpointCapable = false) :
    Acknowledges a c runs [] runs (after, ok) where
  runs := rfl
  control := by simpa using hcontrol
  windows := by simp [hgap]
  stopped := hstopped
  failed := hfailed

theorem Acknowledges.cons {c : Conn} {runs acked : List (List RecoveryWindow)}
    {ack : TrackCheckpointAck} (hack : runAck a run = some ack)
    (hdropped : ((c.covered a ack.groupId ack.finalObjectId).objectGap a).recoveryWindows =
      (c.objectGap a).recoveryWindows.filter fun window => !decide (window ∈ run))
    (hrest : Acknowledges a (c.covered a ack.groupId ack.finalObjectId) runs acked later result) :
    Acknowledges a c (run :: runs) (run :: acked) later result where
  runs := by rw [hrest.runs, List.cons_append]
  control := by
    have halias : ack.trackAlias = a := by
      obtain ⟨last, -, rfl⟩ := Option.map_eq_some_iff.mp hack
      rfl
    have hcovered : (c.covered a ack.groupId ack.finalObjectId).control =
        c.control ++ [c.receiveFrame a (ControlFrame.trackCheckpointAck ack)] := by
      rw [← halias]
      rfl
    have hframes : (fun later => (c.covered a ack.groupId ack.finalObjectId).receiveFrame a
        (ControlFrame.trackCheckpointAck later)) =
          fun later => c.receiveFrame a (ControlFrame.trackCheckpointAck later) := by
      funext later
      exact receiveFrame_covered c a _ _ _
    rw [hrest.control, hcovered, hframes, List.filterMap_cons_some hack, List.map_cons,
      List.append_assoc, List.singleton_append]
  windows := by
    rw [hrest.windows, hdropped, List.filter_filter]
    apply List.filter_congr
    intro window _
    simp [Bool.and_comm]
  stopped := hrest.stopped
  failed := hrest.failed

theorem streamCanAccept_of_closed {c : Conn} (hclosed : c.closed.isSome) :
    c.streamCanAccept = false := by
  rw [streamCanAccept, Option.isNone_eq_false_iff.mpr hclosed, Bool.false_and]

theorem acknowledgeRounds_spec {fuel : Nat} {c : Conn}
    (horders : Orders ordered (c.objectGap a).recoveryWindows) (hfuel : ordered.length < fuel) :
    ∃ acked later, Acknowledges a c (completeRuns ordered) acked later
      (acknowledgeRounds a fuel c) := by
  induction fuel generalizing c ordered with
  | zero => omega
  | succ fuel ih =>
      cases round horders with
      | rested hruns hround =>
          rw [hround, hruns]
          exact ⟨[], [], .none rfl rfl (fun h => absurd rfl h) (fun h => by simp at h)⟩
      | blocked hroom hround =>
          rw [hround]
          exact ⟨[], _, .none rfl rfl (fun _ => .inl hroom) (fun h => by simp at h)⟩
      | failed after hruns hfailed hcontrol hgap hround =>
          rw [hround]
          exact ⟨[], _, .none hcontrol hgap
            (fun _ => hfailed.imp_left streamCanAccept_of_closed) (fun _ => hfailed)⟩
      | acked run later ack hruns hack hshorter hlater hdropped hround =>
          rw [hround, hruns]
          obtain ⟨acked, rest, hrest⟩ := ih hlater (by omega)
          exact ⟨run :: acked, rest, .cons hack hdropped hrest⟩

/-- Rounds beyond the number of windows are not run. -/
theorem acknowledgeRounds_fuel {fuel : Nat} {c : Conn}
    (horders : Orders ordered (c.objectGap a).recoveryWindows) (hfuel : ordered.length < fuel)
    (more : Nat) : acknowledgeRounds a (fuel + more) c = acknowledgeRounds a fuel c := by
  induction fuel generalizing c ordered with
  | zero => omega
  | succ fuel ih =>
      have hsum : fuel + 1 + more = fuel + more + 1 := by omega
      rw [hsum]
      cases round horders with
      | rested hruns hround => rw [hround, hround]
      | blocked hroom hround => rw [hround, hround]
      | failed after hruns hfailed hcontrol hgap hround => rw [hround, hround]
      | acked run later ack hruns hack hshorter hlater hdropped hround =>
          rw [hround, hround]
          exact ih hlater (by omega)

/-- The ACKs cover the complete windows in front of the first incomplete one, run
by run, until the stream has no room; the loop ends by itself. -/
theorem acknowledges_prefix_complete (c : Conn) (a : TrackAlias)
    (hapart : Apart (c.objectGap a).recoveryWindows) :
    (∃ acked later, Acknowledges a c (completeRuns (inOrder (c.objectGap a).recoveryWindows))
      acked later (c.acknowledgeCompletedRecoveryWindows a)) ∧
    (c.streamCanAccept = false → c.acknowledgeCompletedRecoveryWindows a = (c, true)) ∧
    ∀ more, acknowledgeRounds a ((c.objectGap a).recoveryWindows.length + 1 + more) c =
      c.acknowledgeCompletedRecoveryWindows a := by
  have horders := hapart.orders
  have hlength := horders.perm.length_eq
  refine ⟨acknowledgeRounds_spec horders (by omega), ?_, ?_⟩
  · intro hroom
    simp only [acknowledgeCompletedRecoveryWindows, acknowledgeRounds, hroom]
    split
    · rfl
    · split <;> rfl
  · intro more
    exact acknowledgeRounds_fuel horders (by omega) more

/-- Five windows in reversed slots, the fourth of them incomplete and the last one
of another group. -/
def heldBack : Conn :=
  (receiveAll defaultLimits (init 0 defaultLimits) (subscribing defaultLimits feedTrack)
    ).setObjectGap 8 { recoveryWindows :=
      [⟨4, 128, 159, 0⟩, ⟨3, 96, 127, 1⟩, ⟨3, 64, 95, 0⟩, ⟨3, 32, 63, 0⟩, ⟨3, 0, 31, 0⟩] }

theorem heldBack_acknowledged :
    (∃ acked later, Acknowledges 8 heldBack
      (completeRuns (inOrder (heldBack.objectGap 8).recoveryWindows)) acked later
      (heldBack.acknowledgeCompletedRecoveryWindows 8)) ∧
    ackOf 3 95 ∈ (heldBack.acknowledgeCompletedRecoveryWindows 8).1.control ∧
    ((heldBack.acknowledgeCompletedRecoveryWindows 8).1.objectGap 8).recoveryWindows =
      [⟨4, 128, 159, 0⟩, ⟨3, 96, 127, 1⟩] := by
  have hapart : Apart (heldBack.objectGap 8).recoveryWindows := by
    constructor <;> decide +kernel
  exact ⟨(acknowledges_prefix_complete heldBack 8 hapart).1, by decide +kernel,
    by decide +kernel⟩

end Conn

end Qlinq
