import Qlinq.Reassembly

namespace Qlinq

/-! Requested indices and the batches built from them. -/

/-! ### Normalised indices -/

theorem insertIndex_perm (index : Nat) (sorted : List Nat) :
    (insertIndex index sorted).Perm (index :: sorted) := by
  induction sorted with
  | nil => exact List.Perm.refl _
  | cons other rest ih =>
      unfold insertIndex
      split
      · exact (ih.cons other).trans (List.Perm.swap index other rest)
      · exact List.Perm.refl _

theorem insertIndex_sorted (index : Nat) {sorted : List Nat} (hsorted : sorted.Pairwise (· ≤ ·)) :
    (insertIndex index sorted).Pairwise (· ≤ ·) := by
  induction sorted with
  | nil => exact List.pairwise_singleton _ _
  | cons other rest ih =>
      obtain ⟨hfirst, hrest⟩ := List.pairwise_cons.mp hsorted
      unfold insertIndex
      split
      · next hle =>
          refine List.pairwise_cons.mpr ⟨fun later hlater => ?_, ih hrest⟩
          cases List.mem_cons.mp ((insertIndex_perm index rest).mem_iff.mp hlater) with
          | inl heq => exact heq ▸ hle
          | inr hmem => exact hfirst later hmem
      · next hgreater =>
          refine List.pairwise_cons.mpr ⟨fun later hlater => ?_, hsorted⟩
          cases List.mem_cons.mp hlater with
          | inl heq => omega
          | inr hmem =>
              have := hfirst later hmem
              omega

theorem foldl_insertIndex (indices : List Nat) {sorted : List Nat}
    (hsorted : sorted.Pairwise (· ≤ ·)) :
    (indices.foldl (fun sorted index => insertIndex index sorted) sorted).Pairwise (· ≤ ·) ∧
      ∀ index, index ∈ indices.foldl (fun sorted index => insertIndex index sorted) sorted ↔
        index ∈ sorted ∨ index ∈ indices := by
  induction indices generalizing sorted with
  | nil => exact ⟨hsorted, by simp⟩
  | cons first rest ih =>
      obtain ⟨hfold, hmem⟩ := ih (insertIndex_sorted first hsorted)
      refine ⟨hfold, fun index => ?_⟩
      rw [List.foldl_cons, hmem, (insertIndex_perm first sorted).mem_iff, List.mem_cons,
        List.mem_cons]
      tauto

theorem mem_dropRepeats (sorted : List Nat) (index : Nat) :
    index ∈ dropRepeats sorted ↔ index ∈ sorted := by
  induction sorted using dropRepeats.induct with
  | case1 => simp [dropRepeats]
  | case2 only => simp [dropRepeats]
  | case3 first rest ih =>
      simp only [dropRepeats, if_true, ih, List.mem_cons]
      tauto
  | case4 first other rest hne ih =>
      simp only [dropRepeats, if_neg hne, List.mem_cons] at ih ⊢
      rw [ih]

theorem dropRepeats_sorted {sorted : List Nat} (hsorted : sorted.Pairwise (· ≤ ·)) :
    (dropRepeats sorted).Pairwise (· < ·) := by
  induction sorted using dropRepeats.induct with
  | case1 => exact List.Pairwise.nil
  | case2 only => exact List.pairwise_singleton _ _
  | case3 first rest ih =>
      simp only [dropRepeats, if_true]
      exact ih (List.pairwise_cons.mp hsorted).2
  | case4 first other rest hne ih =>
      obtain ⟨hfirst, hrest⟩ := List.pairwise_cons.mp hsorted
      simp only [dropRepeats, if_neg hne]
      refine List.pairwise_cons.mpr ⟨fun later hlater => ?_, ih hrest⟩
      have hhere := hfirst other List.mem_cons_self
      cases List.mem_cons.mp ((mem_dropRepeats _ _).mp hlater) with
      | inl heq => omega
      | inr hmem =>
          have := (List.pairwise_cons.mp hrest).1 later hmem
          omega

/-- The normalised list is the strictly increasing list of the same indices. -/
theorem normalizeIndices_spec (indices : List Nat) :
    (normalizeIndices indices).Pairwise (· < ·) ∧
      ∀ index, index ∈ normalizeIndices indices ↔ index ∈ indices := by
  obtain ⟨hsorted, hmem⟩ := foldl_insertIndex indices List.Pairwise.nil
  refine ⟨dropRepeats_sorted hsorted, fun index => ?_⟩
  rw [normalizeIndices, mem_dropRepeats, hmem]
  simp

/-! ### The batch -/

/-- Indices without repeats are appended as they are. -/
theorem appendUnique_eq {indices batch : List Nat} (hnodup : (batch ++ indices).Nodup)
    (happend : appendUnique indices batch = some result) : result = batch ++ indices := by
  induction indices generalizing batch with
  | nil =>
      rw [List.append_nil]
      exact (Option.some.inj happend).symm
  | cons index rest ih =>
      have hfresh : index ∉ batch := fun hmem =>
        (List.nodup_append.mp hnodup).2.2 index hmem index List.mem_cons_self rfl
      unfold appendUnique at happend
      obtain ⟨-, happend⟩ := Option.ite_none_left_eq_some.mp happend
      rw [if_neg hfresh] at happend
      split at happend
      · cases happend
      · have hmoved : batch ++ [index] ++ rest = batch ++ index :: rest := by simp
        rw [← hmoved]
        exact ih (hmoved ▸ hnodup) happend

/-- The indices a request asks for: the first data symbols, or what it lists. -/
def requestedIndices (object : SentObject) (wholeObject : Bool) (missing : List Nat) : List Nat :=
  if wholeObject then List.range (min object.dataSymbols repairMaxSymbols)
  else missing.take repairMaxSymbols

/-- The rows of a batch are the symbols with its indices: source blocks, or rows of the
parity the codec makes for the batch's total. -/
structure RepairBatch.Rows (batch : RepairBatch) (codec : FecCodec) (object : SentObject) :
    Prop where
  covers : ∀ index ∈ batch.indices, index < batch.totalSymbols
  symbolSize : batch.symbolSize = object.symbolSize
  length_symbols : batch.symbols.length = batch.indices.length
  dataSymbols_le : object.dataSymbols ≤ batch.totalSymbols
  source : ∀ position index : Nat, batch.indices[position]? = some index →
    index < object.dataSymbols →
      batch.symbols[position]? = some (dataBlock object.data object.symbolSize index)
  parity : object.dataSymbols < batch.totalSymbols → ∃ parity,
    codec.encode (fecTypeFor (trackProfile object.trackId).fecRateless batch.totalSymbols)
        ((List.range object.dataSymbols).map (dataBlock object.data object.symbolSize))
        (batch.totalSymbols - object.dataSymbols) object.symbolSize = some parity ∧
      ∀ position index : Nat, batch.indices[position]? = some index →
        object.dataSymbols ≤ index →
          index - object.dataSymbols < parity.length ∧
            batch.symbols[position]? = parity[index - object.dataSymbols]?

theorem getD_symbolBlocks_source {blocks parity : List Bytes} (hindex : index < dataSymbols)
    (hblocks : blocks = sourceBlocks data symbolSize dataSymbols ++ parity) :
    blocks.getD index [] = dataBlock data symbolSize index := by
  subst hblocks
  rw [List.getD_eq_getElem?_getD, List.getElem?_append_left (by simpa using hindex),
    sourceBlocks, List.getElem?_map, List.getElem?_range hindex]
  rfl

theorem getD_symbolBlocks_parity {blocks parity : List Bytes} (hindex : dataSymbols ≤ index)
    (hlength : index - dataSymbols < parity.length)
    (hblocks : blocks = sourceBlocks data symbolSize dataSymbols ++ parity) :
    some (blocks.getD index []) = parity[index - dataSymbols]? := by
  subst hblocks
  rw [List.getD_eq_getElem?_getD, List.getElem?_append_right (by simpa using hindex),
    length_sourceBlocks, List.getElem?_eq_getElem hlength]
  rfl

theorem rows_of_symbolBlocks {codec : FecCodec} (hsized : codec.Sized) {object : SentObject}
    {indices : List Nat} (hinside : ∀ index ∈ indices, index < object.dataSymbols + paritySymbols)
    (hblocks : symbolBlocks codec (trackProfile object.trackId) object.data object.symbolSize
      object.dataSymbols paritySymbols = some blocks) :
    RepairBatch.Rows
      { indices := indices
        totalSymbols := object.dataSymbols + paritySymbols
        symbolSize := object.symbolSize
        symbols := indices.map fun index => blocks.getD index [] } codec object := by
  obtain ⟨parity, hparts, hparity⟩ := symbolBlocks_eq_some hblocks
  refine ⟨hinside, rfl, List.length_map _, Nat.le_add_right _ _, ?_, ?_⟩
  · intro position index hposition hindex
    simp only [List.getElem?_map, hposition, Option.map_some]
    rw [getD_symbolBlocks_source hindex hparts]
  · intro htotal
    have hsome : paritySymbols ≠ 0 := by
      simp only at htotal
      omega
    have hencoded := (hparity.resolve_left fun hnone => hsome hnone.1).2
    simp only [Nat.add_sub_cancel_left]
    refine ⟨parity, hencoded, fun position index hposition hindex => ?_⟩
    have hlength := (hsized _ _ _ _ _ hencoded).1
    have hlt := hinside index (List.mem_of_getElem? hposition)
    have hrow : index - object.dataSymbols < parity.length := by omega
    refine ⟨hrow, ?_⟩
    simp only [List.getElem?_map, hposition, Option.map_some]
    exact getD_symbolBlocks_parity hindex hrow hparts

/-- A built batch holds the requested indices of the symbols up to the highest of them. -/
theorem repairBuild_eq_some {codec : FecCodec} {object : SentObject} (hnodup : missing.Nodup)
    (hbuilt : repairBuild codec object wholeObject missing = some batch) :
    ∃ paritySymbols blocks,
      (∀ index ∈ requestedIndices object wholeObject missing,
        index < object.dataSymbols + paritySymbols) ∧
      symbolBlocks codec (trackProfile object.trackId) object.data object.symbolSize
        object.dataSymbols paritySymbols = some blocks ∧
      batch =
        { indices := requestedIndices object wholeObject missing
          totalSymbols := object.dataSymbols + paritySymbols
          symbolSize := object.symbolSize
          symbols := (requestedIndices object wholeObject missing).map fun index =>
            blocks.getD index [] } := by
  simp only [repairBuild] at hbuilt
  split at hbuilt
  · cases hbuilt
  generalize hselect : (if wholeObject = true then
    some (List.range (min object.dataSymbols repairMaxSymbols))
    else appendUnique (missing.take repairMaxSymbols) []) = requested at hbuilt
  have hrequested : ∀ indices, requested = some indices →
      indices = requestedIndices object wholeObject missing := by
    rintro indices rfl
    unfold requestedIndices
    split at hselect
    · next hwhole => rw [if_pos hwhole, Option.some.inj hselect]
    · next hwhole =>
        rw [if_neg hwhole]
        exact appendUnique_eq (hnodup.sublist (List.take_sublist _ _)) hselect
  split at hbuilt
  · cases hbuilt
  · cases hbuilt
  next indices _ =>
  obtain ⟨-, hbuilt⟩ := Option.ite_none_left_eq_some.mp hbuilt
  obtain ⟨blocks, hblocks, rfl⟩ := Option.map_eq_some_iff.mp hbuilt
  obtain ⟨_, hle⟩ := le_foldl_max indices 0
  obtain rfl := hrequested indices rfl
  refine ⟨_, blocks, fun index hindex => ?_, hblocks, rfl⟩
  have hbound := hle index hindex
  split <;> split <;> omega

theorem repairBuild_spec {codec : FecCodec} (hsized : codec.Sized) {object : SentObject}
    (hnodup : missing.Nodup)
    (hbuilt : repairBuild codec object wholeObject missing = some batch) :
    batch.indices = requestedIndices object wholeObject missing ∧ batch.Rows codec object := by
  obtain ⟨paritySymbols, blocks, hinside, hblocks, rfl⟩ := repairBuild_eq_some hnodup hbuilt
  exact ⟨rfl, rows_of_symbolBlocks hsized hinside hblocks⟩

/-- A batch built for a normalised request holds the requested symbols, the first 64 of
a longer list. -/
theorem repairBuild_normalized {codec : FecCodec} (hsized : codec.Sized) (object : SentObject)
    (wholeObject : Bool) (missing : List Nat) :
    (normalizeIndices missing).Pairwise (· < ·) ∧
      (∀ index, index ∈ normalizeIndices missing ↔ index ∈ missing) ∧
      ∀ batch, repairBuild codec object wholeObject (normalizeIndices missing) = some batch →
        batch.indices = requestedIndices object wholeObject (normalizeIndices missing) ∧
          ((normalizeIndices missing).length ≤ repairMaxSymbols → wholeObject = false →
            ∀ index, index ∈ batch.indices ↔ index ∈ missing) ∧
          batch.Rows codec object := by
  obtain ⟨hsorted, hmem⟩ := normalizeIndices_spec missing
  refine ⟨hsorted, hmem, fun batch hbuilt => ?_⟩
  have hnodup : (normalizeIndices missing).Nodup := hsorted.imp fun hlt => Nat.ne_of_lt hlt
  obtain ⟨hindices, hrows⟩ := repairBuild_spec hsized hnodup hbuilt
  refine ⟨hindices, fun hshort hlisted index => ?_, hrows⟩
  rw [hindices, requestedIndices, hlisted, if_neg Bool.false_ne_true, List.take_of_length_le hshort]
  exact hmem index

/-- `size` bytes in symbols of one byte. -/
def byteSymbols (size : Nat) : SentObject where
  trackId := Conn.unresolvedTrack
  groupId := 0
  objectId := 0
  data := List.replicate size 7
  priority := 0
  isKeyframe := false
  totalSymbols := size + 1
  dataSymbols := size
  symbolSize := 1
  nextRepairSymbol := size + 1
  nextSystematicRepairSymbol := 0
  recoveryProtected := false

theorem repairBuild_normalized_parity :
    ∃ batch, repairBuild Transport.blankCodec (byteSymbols 2) false (normalizeIndices [3, 0, 3]) =
        some batch ∧ batch.indices = [0, 3] ∧ batch.totalSymbols = 4 ∧
      batch.Rows Transport.blankCodec (byteSymbols 2) := by
  have hbuilt : repairBuild Transport.blankCodec (byteSymbols 2) false
      (normalizeIndices [3, 0, 3]) = some ⟨[0, 3], 4, 1, [[7], [0]]⟩ := by decide
  exact ⟨_, hbuilt, rfl, rfl,
    ((repairBuild_normalized Transport.sized_blankCodec (byteSymbols 2) false [3, 0, 3]).2.2 _
      hbuilt).2.2⟩

/-- Of 65 requested indices the last is left out. -/
theorem repairBuild_truncates :
    ∃ batch, repairBuild Transport.blankCodec (byteSymbols 65) false
        (normalizeIndices (List.range 65)) = some batch ∧
      64 ∈ List.range 65 ∧ 64 ∉ batch.indices := by
  have hrange : normalizeIndices (List.range 65) = List.range 65 := by decide +kernel
  have hbuilt : repairBuild Transport.blankCodec (byteSymbols 65) false (List.range 65) =
      some ⟨List.range 64, 66, 1, List.replicate 64 [7]⟩ := by decide +kernel
  exact ⟨_, hrange ▸ hbuilt, by simp, by simp⟩

end Qlinq
