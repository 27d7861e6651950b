import Mathlib.Data.List.Rotate
import Mathlib.Data.List.Sort
import Mathlib.Data.Nat.ModEq
import Qlinq.RepairBatch

namespace Qlinq

/-! The symbols a cached object's repairs are made of, over every run of requests and
publication retries. -/

/-- The entry behind a NACK of which `queues` packets are queued, and the indices in
them. -/
def answerNack (codec : FecCodec) (cached : SentObject) (nack : Nack) (queues : Nat) :
    SentObject × List Nat :=
  match Transport.repairAnswer codec cached nack with
  | none => (cached, [])
  | some (batch, commit) =>
      let queued := min queues batch.indices.length
      ((commit queued).getD cached, batch.indices.take queued)

/-- A NACK of any peer, or the object stored again by a retry with its geometry. -/
inductive RepairEvent where
  | request (codec : FecCodec) (nack : Nack) (queues : Nat)
  | store (object : MoqObject) (totalSymbols : Nat) (allowEvict : Bool)

/-- A retry stores no larger total. -/
def RepairEvent.KeepsTotal (total : Nat) : RepairEvent → Prop
  | .request _ _ _ => True
  | .store _ totalSymbols _ => totalSymbols ≤ total

/-- A cached object with the indices its rateless repairs and their fallback sent. -/
structure RepairLedger where
  entry : SentObject
  rateless : List Nat := []
  systematic : List Nat := []

/-- The symbols a rateless NACK asks for. -/
def requestedCount (cached : SentObject) (nack : Nack) : Nat :=
  if nack.wholeObject then min cached.dataSymbols repairMaxSymbols
  else min nack.missingCount repairMaxSymbols

namespace RepairLedger

def apply (ledger : RepairLedger) : RepairEvent → RepairLedger
  | .request codec nack queues =>
      let (entry, sent) := answerNack codec ledger.entry nack queues
      if nack.rateless = false then
        { ledger with entry }
      else if ledger.entry.nextRepairSymbol < fecMaxTotalSymbols then
        { ledger with entry, rateless := ledger.rateless ++ sent }
      else
        { ledger with entry, systematic := ledger.systematic ++ sent }
  | .store object totalSymbols allowEvict =>
      { ledger with
        entry := SentCache.restore ledger.entry object totalSymbols ledger.entry.dataSymbols
          ledger.entry.symbolSize allowEvict }

def run (entry : SentObject) (events : List RepairEvent) : RepairLedger :=
  Machine.run apply { entry := entry } events

end RepairLedger

/-! ### One answer -/

theorem nodup_offsets (start count : Nat) : ((List.range count).map (start + ·)).Nodup :=
  List.nodup_range.map fun _ _ heq => Nat.add_left_cancel heq

theorem nodup_residues (start : Nat) (hcount : count ≤ modulus) :
    ((List.range count).map fun i => (start + i) % modulus).Nodup := by
  refine List.Nodup.map_on (fun i hi j hj heq => ?_) List.nodup_range
  have hi := List.mem_range.mp hi
  have hj := List.mem_range.mp hj
  exact Nat.ModEq.eq_of_lt_of_lt (Nat.ModEq.add_left_cancel' start heq) (by omega) (by omega)

theorem repairBuild_indices {codec : FecCodec} {object : SentObject} (hnodup : missing.Nodup)
    (hlength : missing.length ≤ repairMaxSymbols)
    (hbuilt : repairBuild codec object false missing = some batch) : batch.indices = missing := by
  obtain ⟨_, _, _, _, rfl⟩ := repairBuild_eq_some hnodup hbuilt
  exact List.take_of_length_le hlength

/-- What a rateless build makes starts at the cursor and stays inside the index space. -/
theorem repairBuildRateless_spec {codec : FecCodec} {entry : SentObject}
    (hbuilt : repairBuildRateless codec entry requested = some batch) :
    batch.indices = (List.range batch.indices.length).map (entry.nextRepairSymbol + ·) ∧
      entry.nextRepairSymbol + batch.indices.length ≤ fecMaxTotalSymbols ∧
      entry.nextRepairSymbol < fecMaxTotalSymbols ∧
      entry.dataSymbols ≤ entry.nextRepairSymbol := by
  unfold repairBuildRateless at hbuilt
  split at hbuilt
  · cases hbuilt
  next hready =>
  have hindices := repairBuild_indices (nodup_offsets _ _)
    (by rw [List.length_map, List.length_range]; omega) hbuilt
  have hlength := congrArg List.length hindices
  rw [List.length_map, List.length_range] at hlength
  refine ⟨?_, by omega, by omega, by omega⟩
  rw [hlength]
  exact hindices

/-- A fallback batch goes on from the cursor, modulo the source symbols. -/
theorem repairBuildSystematicFallback_spec {codec : FecCodec} {entry : SentObject}
    (hbuilt : repairBuildSystematicFallback codec entry requested = some batch) :
    batch.indices = (List.range batch.indices.length).map
        (fun i => (entry.nextSystematicRepairSymbol + i) % entry.dataSymbols) ∧
      entry.nextSystematicRepairSymbol < entry.dataSymbols := by
  unfold repairBuildSystematicFallback at hbuilt
  split at hbuilt
  · cases hbuilt
  next hready =>
  have hindices := repairBuild_indices (nodup_residues _ (Nat.min_le_right _ _))
    (by rw [List.length_map, List.length_range]; omega) hbuilt
  have hlength := congrArg List.length hindices
  rw [List.length_map, List.length_range] at hlength
  refine ⟨?_, by omega⟩
  rw [hlength]
  exact hindices

theorem take_map_range (f : Nat → Nat) (hle : admitted ≤ count) :
    ((List.range count).map f).take admitted = (List.range admitted).map f := by
  rw [← List.map_take, List.take_range, Nat.min_eq_left hle]

/-- The cursor moves behind the admitted symbols, and nowhere when there are none. -/
theorem repairCommitRateless_spec {codec : FecCodec} {entry : SentObject}
    (hbuilt : repairBuildRateless codec entry requested = some batch)
    (hadmitted : admitted ≤ batch.indices.length) :
    (repairCommitRateless entry batch admitted).getD entry =
      { entry with nextRepairSymbol := entry.nextRepairSymbol + admitted } := by
  obtain ⟨hindices, hspace, hleft, -⟩ := repairBuildRateless_spec hbuilt
  unfold repairCommitRateless
  by_cases hnone : admitted = 0
  · rw [if_pos (Or.inl hnone), hnone]
    rfl
  · have htake : batch.indices.take admitted =
        (List.range admitted).map (entry.nextRepairSymbol + ·) := by
      rw [hindices]
      exact take_map_range _ hadmitted
    rw [if_neg]
    · rfl
    · rintro (hzero | hmore | hfull | hover | hother)
      · exact hnone hzero
      · omega
      · omega
      · omega
      · exact hother htake

theorem repairCommitSystematicFallback_spec {codec : FecCodec} {entry : SentObject}
    (hbuilt : repairBuildSystematicFallback codec entry requested = some batch)
    (hadmitted : admitted ≤ batch.indices.length) :
    (repairCommitSystematicFallback entry batch admitted).getD entry =
      { entry with
        nextSystematicRepairSymbol :=
          (entry.nextSystematicRepairSymbol + admitted) % entry.dataSymbols } := by
  obtain ⟨hindices, hcursor⟩ := repairBuildSystematicFallback_spec hbuilt
  unfold repairCommitSystematicFallback
  by_cases hnone : admitted = 0
  · rw [if_pos (Or.inl hnone), hnone, Nat.add_zero, Nat.mod_eq_of_lt hcursor]
    rfl
  · have htake : batch.indices.take admitted = (List.range admitted).map
        (fun i => (entry.nextSystematicRepairSymbol + i) % entry.dataSymbols) := by
      rw [hindices]
      exact take_map_range _ hadmitted
    rw [if_neg]
    · rfl
    · rintro (hzero | hmore | hempty | hout | hother)
      · exact hnone hzero
      · omega
      · omega
      · omega
      · exact hother htake

theorem repairAnswer_rateless (codec : FecCodec) (cached : SentObject) {nack : Nack}
    (hrateless : nack.rateless = true) :
    Transport.repairAnswer codec cached nack =
      match repairBuildRateless codec cached (requestedCount cached nack) with
      | some batch => some (batch, repairCommitRateless cached batch)
      | none =>
          if cached.nextRepairSymbol < fecMaxTotalSymbols then
            none
          else
            (repairBuildSystematicFallback codec cached (requestedCount cached nack)).map
              fun batch => (batch, repairCommitSystematicFallback cached batch) :=
  if_pos hrateless

/-- An answer to a rateless request below the end of the index space. -/
theorem answerNack_rateless (codec : FecCodec) {entry : SentObject} {nack : Nack}
    (hrateless : nack.rateless = true) (hleft : entry.nextRepairSymbol < fecMaxTotalSymbols)
    (queues : Nat) :
    ∃ admitted, answerNack codec entry nack queues =
        ({ entry with nextRepairSymbol := entry.nextRepairSymbol + admitted },
          (List.range admitted).map (entry.nextRepairSymbol + ·)) ∧
      entry.nextRepairSymbol + admitted ≤ fecMaxTotalSymbols ∧
      (0 < admitted → entry.dataSymbols ≤ entry.nextRepairSymbol) := by
  have hsilent : ∃ admitted, (entry, ([] : List Nat)) =
        ({ entry with nextRepairSymbol := entry.nextRepairSymbol + admitted },
          (List.range admitted).map (entry.nextRepairSymbol + ·)) ∧
      entry.nextRepairSymbol + admitted ≤ fecMaxTotalSymbols ∧
      (0 < admitted → entry.dataSymbols ≤ entry.nextRepairSymbol) :=
    ⟨0, rfl, Nat.le_of_lt hleft, fun hpos => absurd hpos (Nat.lt_irrefl 0)⟩
  simp only [answerNack, repairAnswer_rateless codec entry hrateless]
  cases hbuilt : repairBuildRateless codec entry (requestedCount entry nack) with
  | none =>
      simp only [if_pos hleft]
      exact hsilent
  | some batch =>
      obtain ⟨hindices, hspace, -, hdata⟩ := repairBuildRateless_spec hbuilt
      have hle := Nat.min_le_right queues batch.indices.length
      refine ⟨min queues batch.indices.length, ?_, by omega, fun _ => hdata⟩
      simp only
      rw [repairCommitRateless_spec hbuilt hle]
      congr 1
      conv_lhs => rw [hindices]
      rw [List.length_map, List.length_range]
      exact take_map_range _ hle

/-- An answer behind the end of the index space. -/
theorem answerNack_fallback (codec : FecCodec) {entry : SentObject} {nack : Nack}
    (hrateless : nack.rateless = true) (hexhausted : fecMaxTotalSymbols ≤ entry.nextRepairSymbol)
    (hcursor : entry.nextSystematicRepairSymbol % entry.dataSymbols =
      entry.nextSystematicRepairSymbol) (queues : Nat) :
    ∃ admitted, answerNack codec entry nack queues =
        ({ entry with
            nextSystematicRepairSymbol :=
              (entry.nextSystematicRepairSymbol + admitted) % entry.dataSymbols },
          (List.range admitted).map fun i =>
            (entry.nextSystematicRepairSymbol + i) % entry.dataSymbols) ∧
      (0 < admitted → 0 < entry.dataSymbols) := by
  have hnoRateless : ∀ requested, repairBuildRateless codec entry requested = none :=
    fun requested => if_pos (Or.inr (Or.inr (Or.inr hexhausted)))
  simp only [answerNack, repairAnswer_rateless codec entry hrateless, hnoRateless,
    if_neg (Nat.not_lt.mpr hexhausted)]
  cases hbuilt : repairBuildSystematicFallback codec entry (requestedCount entry nack) with
  | none =>
      refine ⟨0, ?_, fun hpos => absurd hpos (Nat.lt_irrefl 0)⟩
      simp only [Option.map_none, Nat.add_zero, hcursor, List.range_zero, List.map_nil]
  | some batch =>
      obtain ⟨hindices, hinside⟩ := repairBuildSystematicFallback_spec hbuilt
      have hle := Nat.min_le_right queues batch.indices.length
      refine ⟨min queues batch.indices.length, ?_, fun _ => by omega⟩
      simp only [Option.map_some]
      rw [repairCommitSystematicFallback_spec hbuilt hle]
      congr 1
      conv_lhs => rw [hindices]
      rw [List.length_map, List.length_range]
      exact take_map_range _ hle

/-- Indices a peer asks for by name leave the cursors alone. -/
theorem answerNack_indexed (codec : FecCodec) (entry : SentObject) {nack : Nack}
    (hindexed : nack.rateless = false) (queues : Nat) :
    (answerNack codec entry nack queues).1 = entry := by
  have hwire : ¬ nack.rateless = true := by simp [hindexed]
  simp only [answerNack, Transport.repairAnswer, if_neg hwire]
  split
  · rfl
  · next hanswer =>
      split at hanswer
      · cases hanswer
      · obtain ⟨_, _, hpair⟩ := Option.map_eq_some_iff.mp hanswer
        cases hpair
        rfl

theorem appendUnique_of_nodup {indices batch : List Nat} (hnodup : (batch ++ indices).Nodup)
    (hlength : (batch ++ indices).length ≤ repairMaxSymbols)
    (hindices : ∀ index ∈ indices, index < fecMaxTotalSymbols) :
    appendUnique indices batch = some (batch ++ indices) := by
  induction indices generalizing batch with
  | nil => rw [List.append_nil]; rfl
  | cons index rest ih =>
      obtain ⟨hindex, hrest⟩ := List.forall_mem_cons.mp hindices
      have hfresh : index ∉ batch := fun hmem =>
        (List.nodup_append.mp hnodup).2.2 index hmem index List.mem_cons_self rfl
      have hmoved : batch ++ [index] ++ rest = batch ++ index :: rest := by simp
      rw [List.length_append, List.length_cons] at hlength
      unfold appendUnique
      rw [if_neg (by omega), if_neg hfresh, if_neg (by omega),
        ih (hmoved ▸ hnodup) (by rw [hmoved, List.length_append, List.length_cons]; omega) hrest,
        hmoved]

/-- Source symbols need no codec. -/
theorem repairBuild_source (codec : FecCodec) {entry : SentObject} {indices : List Nat}
    (htrack : (trackProfile entry.trackId).fecRateless = true) (hdata : entry.data ≠ [])
    (hsize : entry.symbolSize ≠ 0) (hsymbols : entry.dataSymbols ≤ fecMaxTotalSymbols)
    (hsome : indices ≠ []) (hnodup : indices.Nodup) (hlength : indices.length ≤ repairMaxSymbols)
    (hindices : ∀ index ∈ indices, index < entry.dataSymbols) :
    (repairBuild codec entry false indices).isSome := by
  obtain ⟨first, hfirst⟩ := List.exists_mem_of_ne_nil indices hsome
  have hpos : 0 < entry.dataSymbols := (Nat.zero_le first).trans_lt (hindices first hfirst)
  have happend : appendUnique (indices.take repairMaxSymbols) [] = some indices := by
    rw [List.take_of_length_le hlength]
    exact appendUnique_of_nodup hnodup hlength
      fun index hindex => (hindices index hindex).trans_le hsymbols
  have hhighest : indices.foldl max 0 < entry.dataSymbols := foldl_max_lt indices hpos hindices
  have hlimit : entry.dataSymbols ≤ 1024 := hsymbols
  simp only [repairBuild]
  rw [if_neg (by simp [hdata, hsize, Nat.ne_of_gt hpos]), if_neg Bool.false_ne_true, happend]
  cases indices with
  | nil => exact absurd rfl hsome
  | cons index rest =>
      simp only [htrack, if_true, if_neg (Nat.not_le.mpr hhighest)]
      rw [if_neg (by omega)]
      simp [symbolBlocks]

/-- Behind the end of the index space a request is answered with as many source symbols
as it asks for, each at most once. -/
theorem length_answerNack_fallback (codec : FecCodec) {entry : SentObject} {nack : Nack}
    (hrateless : nack.rateless = true) (htrack : (trackProfile entry.trackId).fecRateless = true)
    (hexhausted : fecMaxTotalSymbols ≤ entry.nextRepairSymbol)
    (hcursor : entry.nextSystematicRepairSymbol < entry.dataSymbols)
    (hdata : entry.data ≠ []) (hsymbols : entry.dataSymbols ≤ fecMaxTotalSymbols)
    (hsize : entry.symbolSize ≠ 0) (hrequested : requestedCount entry nack ≠ 0) (queues : Nat) :
    (answerNack codec entry nack queues).2.length =
      min queues (min (requestedCount entry nack) entry.dataSymbols) := by
  have hnoRateless : ∀ requested, repairBuildRateless codec entry requested = none :=
    fun requested => if_pos (Or.inr (Or.inr (Or.inr hexhausted)))
  have hcapped : requestedCount entry nack ≤ repairMaxSymbols := by
    unfold requestedCount
    split
    · exact Nat.min_le_right _ _
    · exact Nat.min_le_right _ _
  let indices := (List.range (min (requestedCount entry nack) entry.dataSymbols)).map fun i =>
    (entry.nextSystematicRepairSymbol + i) % entry.dataSymbols
  have hlength : indices.length = min (requestedCount entry nack) entry.dataSymbols := by
    simp [indices]
  have hbuild : repairBuildSystematicFallback codec entry (requestedCount entry nack) =
      repairBuild codec entry false indices := by
    unfold repairBuildSystematicFallback
    rw [if_neg]
    · simp only [Nat.min_eq_left hcapped, indices]
    · simp only [htrack, Bool.true_eq_false, false_or]
      omega
  have hnodup : indices.Nodup := nodup_residues _ (Nat.min_le_right _ _)
  have hbuilds : (repairBuild codec entry false indices).isSome := by
    refine repairBuild_source codec htrack hdata hsize hsymbols ?_ hnodup (by omega) ?_
    · refine List.ne_nil_of_length_pos ?_
      omega
    · intro index hindex
      obtain ⟨_, _, rfl⟩ := List.mem_map.mp hindex
      exact Nat.mod_lt _ (by omega)
  obtain ⟨batch, hbuilt⟩ := Option.isSome_iff_exists.mp hbuilds
  have hindices := repairBuild_indices hnodup (by omega) hbuilt
  simp only [answerNack, repairAnswer_rateless codec entry hrateless, hnoRateless,
    if_neg (Nat.not_lt.mpr hexhausted), hbuild, hbuilt, Option.map_some]
  rw [List.length_take, hindices, hlength]
  omega

theorem totalSymbols_answerNack (codec : FecCodec) (entry : SentObject) (nack : Nack)
    (queues : Nat) : (answerNack codec entry nack queues).1.totalSymbols = entry.totalSymbols := by
  have hrateless : ∀ batch admitted,
      ((repairCommitRateless entry batch admitted).getD entry).totalSymbols =
        entry.totalSymbols := by
    intro batch admitted
    unfold repairCommitRateless
    split <;> rfl
  have hsystematic : ∀ batch admitted,
      ((repairCommitSystematicFallback entry batch admitted).getD entry).totalSymbols =
        entry.totalSymbols := by
    intro batch admitted
    unfold repairCommitSystematicFallback
    split <;> rfl
  cases hwire : nack.rateless with
  | false => rw [answerNack_indexed codec entry hwire queues]
  | true =>
      simp only [answerNack, repairAnswer_rateless codec entry hwire]
      cases repairBuildRateless codec entry (requestedCount entry nack) with
      | some batch => exact hrateless batch _
      | none =>
          simp only
          split
          · rfl
          · next hanswer =>
              split at hanswer
              · cases hanswer
              · obtain ⟨_, _, hpair⟩ := Option.map_eq_some_iff.mp hanswer
                cases hpair
                exact hsystematic _ _

/-! ### A run -/

namespace RepairLedger

/-- What holds of the indices sent since the object was cached with `firstTotal`. -/
structure Allocated (dataSymbols firstTotal : Nat) (ledger : RepairLedger) : Prop where
  symbols : ledger.entry.dataSymbols = dataSymbols
  total_le : ledger.entry.totalSymbols ≤ ledger.entry.nextRepairSymbol
  first_le : firstTotal ≤ ledger.entry.totalSymbols
  increasing : ledger.rateless.Pairwise (· < ·)
  bounds : ∀ index ∈ ledger.rateless, firstTotal ≤ index ∧ dataSymbols ≤ index ∧
    index < fecMaxTotalSymbols ∧ index < ledger.entry.nextRepairSymbol
  gapless : ∀ index, ledger.entry.totalSymbols ≤ index →
    index < ledger.entry.nextRepairSymbol → index ∈ ledger.rateless
  systematic : ledger.systematic =
    (List.range ledger.systematic.length).map (· % dataSymbols)
  cursor : ledger.entry.nextSystematicRepairSymbol = ledger.systematic.length % dataSymbols
  exhausted : ledger.systematic ≠ [] →
    0 < dataSymbols ∧ fecMaxTotalSymbols ≤ ledger.entry.nextRepairSymbol

theorem allocated_retained (object : MoqObject) (totalSymbols dataSymbols symbolSize : Nat)
    (allowEvict : Bool) :
    Allocated dataSymbols totalSymbols
      { entry := SentCache.retained object totalSymbols dataSymbols symbolSize allowEvict } where
  symbols := rfl
  total_le := Nat.le_refl _
  first_le := Nat.le_refl _
  increasing := List.Pairwise.nil
  bounds := by simp
  gapless := fun index hge hlt => absurd hlt (Nat.not_lt.mpr hge)
  systematic := rfl
  cursor := (Nat.zero_mod _).symm
  exhausted := fun hsome => absurd rfl hsome

variable {ledger : RepairLedger} {dataSymbols firstTotal : Nat}

theorem Allocated.rateless (hledger : Allocated dataSymbols firstTotal ledger) (admitted : Nat)
    (hspace : ledger.entry.nextRepairSymbol + admitted ≤ fecMaxTotalSymbols)
    (hdata : 0 < admitted → ledger.entry.dataSymbols ≤ ledger.entry.nextRepairSymbol)
    (hleft : ledger.entry.nextRepairSymbol < fecMaxTotalSymbols) :
    Allocated dataSymbols firstTotal
      { ledger with
        entry :=
          { ledger.entry with
            nextRepairSymbol := ledger.entry.nextRepairSymbol + admitted }
        rateless := ledger.rateless ++
          (List.range admitted).map (ledger.entry.nextRepairSymbol + ·) } := by
  have hmem : ∀ index, index ∈ (List.range admitted).map (ledger.entry.nextRepairSymbol + ·) ↔
      ledger.entry.nextRepairSymbol ≤ index ∧
        index < ledger.entry.nextRepairSymbol + admitted := by
    intro index
    simp only [List.mem_map, List.mem_range]
    constructor
    · rintro ⟨offset, hoffset, rfl⟩
      omega
    · rintro ⟨hge, hlt⟩
      exact ⟨index - ledger.entry.nextRepairSymbol, by omega, by omega⟩
  have htotal := hledger.total_le
  have hfirst := hledger.first_le
  have hsymbols := hledger.symbols
  constructor
  · exact hsymbols
  · exact htotal.trans (Nat.le_add_right _ _)
  · exact hfirst
  · refine List.pairwise_append.mpr ⟨hledger.increasing, ?_, fun old hold new hnew => ?_⟩
    · rw [List.pairwise_map]
      exact List.pairwise_lt_range.imp fun hlt => Nat.add_lt_add_left hlt _
    · have hbefore := (hledger.bounds old hold).2.2.2
      have hafter := (hmem new).mp hnew
      omega
  · intro index hindex
    simp only
    cases List.mem_append.mp hindex with
    | inl hold =>
        have := hledger.bounds index hold
        omega
    | inr hnew =>
        have hinside := (hmem index).mp hnew
        have := hdata (by omega)
        omega
  · intro index hge hlt
    refine List.mem_append.mpr ?_
    by_cases hold : index < ledger.entry.nextRepairSymbol
    · exact Or.inl (hledger.gapless index hge hold)
    · exact Or.inr ((hmem index).mpr ⟨Nat.not_lt.mp hold, hlt⟩)
  · exact hledger.systematic
  · exact hledger.cursor
  · intro hsome
    have := hledger.exhausted hsome
    simp only
    omega

theorem Allocated.fallback (hledger : Allocated dataSymbols firstTotal ledger) (admitted : Nat)
    (hdata : 0 < admitted → 0 < ledger.entry.dataSymbols)
    (hexhausted : fecMaxTotalSymbols ≤ ledger.entry.nextRepairSymbol) :
    Allocated dataSymbols firstTotal
      { ledger with
        entry :=
          { ledger.entry with
            nextSystematicRepairSymbol :=
              (ledger.entry.nextSystematicRepairSymbol + admitted) %
                ledger.entry.dataSymbols }
        systematic := ledger.systematic ++ (List.range admitted).map fun i =>
          (ledger.entry.nextSystematicRepairSymbol + i) % ledger.entry.dataSymbols } := by
  have hsymbols := hledger.symbols
  have hcursor := hledger.cursor
  refine ⟨hsymbols, hledger.total_le, hledger.first_le, hledger.increasing, hledger.bounds,
    hledger.gapless, ?_, ?_, ?_⟩
  · simp only [List.length_append, List.length_map, List.length_range, List.range_add,
      List.map_append, List.map_map, hsymbols, hcursor]
    rw [← hledger.systematic]
    congr 1
    refine List.map_congr_left fun i _ => ?_
    simp only [Function.comp_apply, Nat.mod_add_mod]
  · simp only [List.length_append, List.length_map, List.length_range, hsymbols, hcursor,
      Nat.mod_add_mod]
  · intro hsome
    refine ⟨?_, hexhausted⟩
    by_cases hnone : admitted = 0
    · subst hnone
      exact (hledger.exhausted (by simpa using hsome)).1
    · rw [← hsymbols]
      exact hdata (Nat.pos_of_ne_zero hnone)

theorem Allocated.store (hledger : Allocated dataSymbols firstTotal ledger) (object : MoqObject)
    (totalSymbols : Nat) (allowEvict : Bool) :
    Allocated dataSymbols firstTotal (ledger.apply (.store object totalSymbols allowEvict)) := by
  have htotal := hledger.total_le
  have hfirst := hledger.first_le
  refine ⟨hledger.symbols, ?_, ?_, hledger.increasing, fun index hindex => ?_,
    fun index hge hlt => ?_, hledger.systematic, hledger.cursor, fun hsome => ?_⟩
  · exact Nat.le_max_right _ _
  · exact hfirst.trans (Nat.le_max_right _ _)
  · have hbounds := hledger.bounds index hindex
    simp only [apply, SentCache.restore]
    omega
  · simp only [apply, SentCache.restore] at hge hlt
    exact hledger.gapless index (by omega) (by omega)
  · have := hledger.exhausted hsome
    simp only [apply, SentCache.restore]
    omega

theorem allocated_apply (hledger : Allocated dataSymbols firstTotal ledger)
    (event : RepairEvent) : Allocated dataSymbols firstTotal (ledger.apply event) := by
  cases event with
  | store object totalSymbols allowEvict => exact hledger.store object totalSymbols allowEvict
  | request codec nack queues =>
      simp only [apply]
      cases hrateless : nack.rateless with
      | false =>
          rw [if_pos rfl, answerNack_indexed codec ledger.entry hrateless queues]
          exact hledger
      | true =>
          rw [if_neg (by simp)]
          by_cases hleft : ledger.entry.nextRepairSymbol < fecMaxTotalSymbols
          · obtain ⟨admitted, hanswer, hspace, hdata⟩ :=
              answerNack_rateless codec hrateless hleft queues
            rw [if_pos hleft, hanswer]
            exact hledger.rateless admitted hspace hdata hleft
          · have hexhausted := Nat.not_lt.mp hleft
            have hcursor : ledger.entry.nextSystematicRepairSymbol % ledger.entry.dataSymbols =
                ledger.entry.nextSystematicRepairSymbol := by
              rw [hledger.cursor, hledger.symbols, Nat.mod_mod]
            obtain ⟨admitted, hanswer, hdata⟩ :=
              answerNack_fallback codec hrateless hexhausted hcursor queues
            rw [if_neg hleft, hanswer]
            exact hledger.fallback admitted hdata hexhausted

theorem allocated_run {entry : SentObject}
    (hentry : Allocated dataSymbols firstTotal { entry := entry }) (events : List RepairEvent) :
    Allocated dataSymbols firstTotal (run entry events) :=
  Machine.invariant_run (fun _ event hledger _ => allocated_apply hledger event) hentry
    (Machine.along_true _ _)

theorem totalSymbols_run (entry : SentObject) (events : List RepairEvent)
    (hkeeps : ∀ event ∈ events, event.KeepsTotal entry.totalSymbols) :
    (run entry events).entry.totalSymbols = entry.totalSymbols := by
  have hstep : ∀ (ledger : RepairLedger) (event : RepairEvent),
      ledger.entry.totalSymbols = entry.totalSymbols → event.KeepsTotal entry.totalSymbols →
        (ledger.apply event).entry.totalSymbols = entry.totalSymbols := by
    intro ledger event hledger hevent
    cases event with
    | store object totalSymbols allowEvict =>
        simp only [RepairEvent.KeepsTotal] at hevent
        simp only [apply, SentCache.restore]
        omega
    | request codec nack queues =>
        have hanswer := totalSymbols_answerNack codec ledger.entry nack queues
        simp only [apply]
        split
        · exact hanswer.trans hledger
        · split
          · exact hanswer.trans hledger
          · exact hanswer.trans hledger
  have hkept : Machine.Along apply
      (fun _ event => RepairEvent.KeepsTotal entry.totalSymbols event) { entry := entry } events :=
    Machine.along_of_forall_mem (fun _ => hkeeps) _
  exact Machine.invariant_run hstep rfl hkept

/-- A window of residues covers each of them once. -/
theorem residues_perm (start modulus : Nat) :
    ((List.range modulus).map fun i => (start + i) % modulus).Perm (List.range modulus) := by
  have hrotated : ((List.range modulus).map fun i => (start + i) % modulus) =
      (List.range modulus).rotate start := by
    refine List.ext_getElem (by simp) fun i hleft hright => ?_
    simp [List.getElem_rotate, Nat.add_comm]
  rw [hrotated]
  exact List.rotate_perm _ _

theorem Allocated.window (hledger : Allocated dataSymbols firstTotal ledger)
    (hwindow : start + dataSymbols ≤ ledger.systematic.length) :
    ((ledger.systematic.drop start).take dataSymbols).Perm (List.range dataSymbols) := by
  have hcut : (ledger.systematic.drop start).take dataSymbols =
      (List.range dataSymbols).map fun i => (start + i) % dataSymbols := by
    rw [hledger.systematic]
    refine List.ext_getElem (by simp; omega) fun i hleft hright => ?_
    simp
  rw [hcut]
  exact residues_perm start dataSymbols

/-- With the total of the first store the indices are an interval. -/
theorem Allocated.rateless_eq (hledger : Allocated dataSymbols firstTotal ledger)
    (htotal : ledger.entry.totalSymbols = firstTotal) :
    ledger.rateless = List.range' firstTotal ledger.rateless.length := by
  have hinterval : ledger.rateless =
      List.range' firstTotal (ledger.entry.nextRepairSymbol - firstTotal) := by
    refine hledger.increasing.eq_of_mem_iff List.pairwise_lt_range' fun index => ?_
    rw [List.mem_range'_1]
    constructor
    · intro hindex
      have := hledger.bounds index hindex
      omega
    · rintro ⟨hge, hlt⟩
      exact hledger.gapless index (by omega) (by omega)
  have hlength := congrArg List.length hinterval
  rw [List.length_range'] at hlength
  rw [hlength]
  exact hinterval

/-- Rateless repairs never repeat an index, leave none out behind the object's total and
stay between its source symbols and the end of the index space; behind that end every
window of fallback symbols covers the source. -/
theorem repairs_allocated (object : MoqObject) (totalSymbols dataSymbols symbolSize : Nat)
    (allowEvict : Bool) (events : List RepairEvent) :
    let ledger :=
      run (SentCache.retained object totalSymbols dataSymbols symbolSize allowEvict) events
    ledger.rateless.Pairwise (· < ·) ∧
      (∀ index ∈ ledger.rateless,
        totalSymbols ≤ index ∧ dataSymbols ≤ index ∧ index < fecMaxTotalSymbols) ∧
      (∀ index, ledger.entry.totalSymbols ≤ index → index < ledger.entry.nextRepairSymbol →
        index ∈ ledger.rateless) ∧
      ((∀ event ∈ events, event.KeepsTotal totalSymbols) →
        ledger.rateless = List.range' totalSymbols ledger.rateless.length) ∧
      (ledger.systematic ≠ [] → fecMaxTotalSymbols ≤ ledger.entry.nextRepairSymbol) ∧
      (∀ start, start + dataSymbols ≤ ledger.systematic.length →
        ((ledger.systematic.drop start).take dataSymbols).Perm (List.range dataSymbols)) ∧
      ∀ codec nack queues, nack.rateless = true →
        (trackProfile ledger.entry.trackId).fecRateless = true →
        fecMaxTotalSymbols ≤ ledger.entry.nextRepairSymbol → ledger.entry.data ≠ [] →
        0 < dataSymbols → dataSymbols ≤ fecMaxTotalSymbols → ledger.entry.symbolSize ≠ 0 →
        requestedCount ledger.entry nack ≠ 0 →
        (answerNack codec ledger.entry nack queues).2.length =
          min queues (min (requestedCount ledger.entry nack) dataSymbols) := by
  intro ledger
  have hledger : Allocated dataSymbols totalSymbols ledger := allocated_run
    (allocated_retained object totalSymbols dataSymbols symbolSize allowEvict) events
  refine ⟨hledger.increasing, fun index hindex => ?_, hledger.gapless, fun hkeeps => ?_,
    fun hsome => (hledger.exhausted hsome).2, fun start hwindow => hledger.window hwindow, ?_⟩
  · have := hledger.bounds index hindex
    omega
  · exact hledger.rateless_eq (totalSymbols_run _ events hkeeps)
  · intro codec nack queues hrateless htrack hexhausted hdata hpos hsymbols hsize hrequested
    have hcursor : ledger.entry.nextSystematicRepairSymbol < ledger.entry.dataSymbols := by
      rw [hledger.cursor, hledger.symbols]
      exact Nat.mod_lt _ hpos
    rw [← hledger.symbols] at hsymbols ⊢
    exact length_answerNack_fallback codec hrateless htrack hexhausted hcursor hdata hsymbols
      hsize hrequested queues

end RepairLedger

/-! ### The endpoint answers so -/

/-- A retry of the publication restores the entry. -/
theorem store_restores {cache : SentCache} {object : MoqObject}
    (hfind : cache.find object.trackId object.groupId object.objectId = some existing)
    (hsome : object.data ≠ []) (hdata : existing.data = object.data)
    (totalSymbols dataSymbols symbolSize : Nat) (allowEvict allocates : Bool)
    (overlaps : SentObject → Bool) :
    cache.store object totalSymbols dataSymbols symbolSize allowEvict allocates overlaps =
      (cache.update existing
        (SentCache.restore existing object totalSymbols dataSymbols symbolSize allowEvict),
        true) := by
  simp only [SentCache.store, if_neg hsome, hfind, hdata, ne_eq, not_true_eq_false, if_false,
    SentCache.update]

theorem update_self (cache : SentCache) (entry : SentObject) :
    cache.update entry entry = cache := by
  have hmap : cache.entries.map (fun slot => if slot = some entry then some entry else slot) =
      cache.entries := by
    refine List.map_id'' (fun slot => ?_) _
    split
    · next heq => exact heq.symm
    · rfl
  simp only [SentCache.update, hmap]

/-- A NACK that passes the checks is answered from its object's entry, whoever sent it. -/
theorem receiveNack_answers {t : Transport} {env : RepairEnv} {c : Conn} {nack : Nack}
    (hallowed : env.requestAllowed = true) (haggregate : env.aggregateAllowed = true)
    (htrack : c.sendSubscriptions.findByAlias nack.trackAlias = some track)
    (hmode : nack.rateless = true →
      (trackProfile track).fecRateless = true ∧ c.hasCapability capRatelessRepair = true)
    (hfind : t.sentCache.find track nack.groupId nack.objectId = some cached) :
    (t.receiveNack env c nack).sentCache =
        t.sentCache.update cached (answerNack env.codec cached nack env.queues).1 ∧
      ∃ packets : List (Sent Datagram),
        packets.map (·.message.header.symbolIndex) =
          (answerNack env.codec cached nack env.queues).2 ∧
        (packets = [] ∧ t.receiveNack env c nack = t ∨
          t.receiveNack env c nack =
            { t with
              sentCache := t.sentCache.update cached
                (answerNack env.codec cached nack env.queues).1 }.setConn
              { c with datagrams := c.datagrams ++ packets }) := by
  have hpasses : (nack.rateless && (!(trackProfile track).fecRateless ||
      !c.hasCapability capRatelessRepair)) = false := by
    cases hwire : nack.rateless with
    | false => rfl
    | true =>
        obtain ⟨hrateless, hcapable⟩ := hmode hwire
        rw [hrateless, hcapable]
        rfl
  simp only [Transport.receiveNack, hallowed, haggregate, htrack, hfind, hpasses, answerNack]
  cases hanswer : Transport.repairAnswer env.codec cached nack with
  | none =>
      simp only [update_self]
      exact ⟨rfl, [], rfl, Or.inl ⟨rfl, rfl⟩⟩
  | some answer =>
      obtain ⟨batch, commit⟩ := answer
      refine ⟨rfl, _, ?_, Or.inr rfl⟩
      rw [List.map_map]
      refine List.ext_getElem (by simp) fun position hleft hright => ?_
      have hinside : position < batch.indices.length := by
        rw [List.length_take] at hright
        omega
      simp [repairPacket, Conn.sendFrame, List.getElem?_eq_getElem hinside]

end Qlinq
