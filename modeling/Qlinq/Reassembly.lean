import Qlinq.Deliveries
import Qlinq.Symbols

namespace Qlinq

/-! What the receiving side makes of the symbols of one object. -/

theorem symbolBlocks_eq_some (hblocks : symbolBlocks codec profile data symbolSize dataSymbols
      paritySymbols = some blocks) :
    ∃ parity, blocks = sourceBlocks data symbolSize dataSymbols ++ parity ∧
      (paritySymbols = 0 ∧ parity = [] ∨
        paritySymbols ≠ 0 ∧
          codec.encode (fecTypeFor profile.fecRateless (dataSymbols + paritySymbols))
            (sourceBlocks data symbolSize dataSymbols) paritySymbols symbolSize =
            some parity) := by
  unfold symbolBlocks at hblocks
  extract_lets source at hblocks
  split at hblocks
  · next hzero =>
      obtain rfl := Option.some.inj hblocks
      exact ⟨[], (List.append_nil _).symm, Or.inl ⟨hzero, rfl⟩⟩
  · next hsome =>
      obtain ⟨parity, hparity, rfl⟩ := Option.map_eq_some_iff.mp hblocks
      exact ⟨parity, rfl, Or.inr ⟨hsome, hparity⟩⟩

namespace FrameAssembler

/-- Every symbol in the assembler is one of the object's, and its total is that of an
encoding of the object. -/
structure Holds (codec : FecCodec) (object : MoqObject) (geometry : Geometry)
    (assembler : FrameAssembler) : Prop where
  dataSymbols : assembler.dataSymbols = geometry.dataSymbols
  symbolSize : assembler.symbolSize = geometry.symbolSize
  originalSize : assembler.originalSize = object.size
  symbols : ∀ datagram ∈ assembler.received,
    datagram.message.SymbolOf codec object geometry ∧
      datagram.message.header.totalSymbols ≤ assembler.totalSymbols
  encoded : ∃ paritySymbols blocks,
    symbolBlocks codec (trackProfile object.trackId) object.data geometry.symbolSize
      geometry.dataSymbols paritySymbols = some blocks ∧
    assembler.totalSymbols = geometry.dataSymbols + paritySymbols

/-- The codec is asked: symbols enough, but not every source symbol. -/
def Decodes (assembler : FrameAssembler) : Prop :=
  assembler.dataSymbols ≤ assembler.received.length ∧
    ∃ index < assembler.dataSymbols, Conn.symbolAt assembler index = none

instance (assembler : FrameAssembler) : Decidable assembler.Decodes := by
  unfold Decodes
  infer_instance

/-- The parity symbols were made with the codec that now decodes them, and Reed-Solomon
ones with the total it now assumes. -/
def OneEncoding (object : MoqObject) (rateless : Bool) (assembler : FrameAssembler) : Prop :=
  rateless = (trackProfile object.trackId).fecRateless ∧
    ∀ datagram ∈ assembler.received,
      assembler.dataSymbols ≤ datagram.message.header.symbolIndex →
      fecTypeFor rateless datagram.message.header.totalSymbols =
          fecTypeFor rateless assembler.totalSymbols ∧
        (fecTypeFor rateless assembler.totalSymbols = .reedSolomon →
          datagram.message.header.totalSymbols = assembler.totalSymbols)

instance (object : MoqObject) (rateless : Bool) (assembler : FrameAssembler) :
    Decidable (assembler.OneEncoding object rateless) := by
  unfold OneEncoding
  infer_instance

/-- Symbols of a rateless object are of one encoding, however many a sender made. -/
theorem oneEncoding_of_rateless
    (hobject : (trackProfile object.trackId).fecRateless = true) (assembler : FrameAssembler) :
    assembler.OneEncoding object true := by
  refine ⟨hobject.symm, fun datagram _ _ => ?_⟩
  simp [fecTypeFor]

end FrameAssembler

namespace Conn

open FrameAssembler (Holds OneEncoding)

theorem symbolAt_eq_some (hsymbol : symbolAt assembler index = some block) :
    ∃ datagram ∈ assembler.received,
      datagram.message.header.symbolIndex = index ∧ datagram.message.symbol = block := by
  obtain ⟨datagram, hfind, hblock⟩ := Option.map_eq_some_iff.mp hsymbol
  exact ⟨datagram, List.mem_of_find?_eq_some hfind,
    by simpa using List.find?_some hfind, hblock⟩

/-- A received source symbol is the source block. -/
theorem sourceBlock_of_symbolAt (hholds : Holds codec object geometry assembler)
    (hindex : index < geometry.dataSymbols) (hsymbol : symbolAt assembler index = some block) :
    (sourceBlocks object.data geometry.symbolSize geometry.dataSymbols)[index]? =
      some block := by
  obtain ⟨datagram, hmem, rfl, rfl⟩ := symbolAt_eq_some hsymbol
  obtain ⟨_, _, paritySymbols, blocks, hblocks, _, _, hsymbol⟩ := (hholds.symbols _ hmem).1
  obtain ⟨parity, rfl, _⟩ := symbolBlocks_eq_some hblocks
  have hinside : datagram.message.header.symbolIndex <
      (sourceBlocks object.data geometry.symbolSize geometry.dataSymbols).length := by
    rw [length_sourceBlocks]
    exact hindex
  rw [hsymbol, List.getD_eq_getElem?_getD, List.getElem?_append_left hinside,
    List.getElem?_eq_getElem hinside]
  rfl

/-- A received parity symbol belongs to the encoding the decoder assumes. -/
theorem parityBlock_of_symbolAt (hlaw : codec.Recovers)
    (hholds : Holds codec object geometry assembler)
    (hone : OneEncoding object rateless assembler)
    (hencoded : codec.encode (fecTypeFor rateless assembler.totalSymbols)
      (sourceBlocks object.data geometry.symbolSize geometry.dataSymbols) paritySymbols
      geometry.symbolSize = some parity)
    (htotal : assembler.totalSymbols = geometry.dataSymbols + paritySymbols)
    (hindex : geometry.dataSymbols ≤ index) (hsymbol : symbolAt assembler index = some block) :
    parity[index - geometry.dataSymbols]? = some block := by
  obtain ⟨datagram, hmem, rfl, rfl⟩ := symbolAt_eq_some hsymbol
  obtain ⟨hmade, hle⟩ := hholds.symbols datagram hmem
  obtain ⟨_, _, itsParity, blocks, hblocks, hitsTotal, hinside, hsymbol⟩ := hmade
  obtain ⟨hrateless, hsame⟩ := hone
  have hdata := hholds.dataSymbols
  obtain ⟨htype, hcount⟩ := hsame datagram hmem (by omega)
  obtain ⟨itsBlocks, rfl, hnone | ⟨_, hits⟩⟩ := symbolBlocks_eq_some hblocks
  · omega
  rw [← hrateless, ← hitsTotal, htype] at hits
  have hshort : itsBlocks.length = itsParity := (hlaw.sized _ _ _ _ _ hits).1
  have hposition : datagram.message.header.symbolIndex - geometry.dataSymbols <
      itsBlocks.length := by omega
  have hblock : datagram.message.symbol =
      itsBlocks.getD (datagram.message.header.symbolIndex - geometry.dataSymbols) [] := by
    rw [hsymbol, List.getD_eq_getElem?_getD, List.getD_eq_getElem?_getD,
      List.getElem?_append_right (by rw [length_sourceBlocks]; exact hindex),
      length_sourceBlocks]
  have hlooked : itsBlocks[datagram.message.header.symbolIndex - geometry.dataSymbols]? =
      some datagram.message.symbol := by
    rw [hblock, List.getD_eq_getElem?_getD, List.getElem?_eq_getElem hposition]
    rfl
  cases hcodec : fecTypeFor rateless assembler.totalSymbols with
  | reedSolomon =>
      have hparities : itsParity = paritySymbols := by
        have := hcount hcodec
        omega
      rw [hparities, hencoded] at hits
      rw [Option.some.inj hits]
      exact hlooked
  | raptorQ =>
      rw [hcodec] at hits hencoded
      rw [← hlaw.by_index _ _ _ _ _ _ hits hencoded (by omega) _ (by omega)]
      exact hlooked

/-- Whatever symbols arrived, the blocks are those of the object. -/
theorem assembledBlocks_eq_sourceBlocks (hlaw : codec.Recovers)
    (hholds : Holds codec object geometry assembler)
    (hone : assembler.Decodes → OneEncoding object rateless assembler)
    (hblocks : assembledBlocks codec rateless assembler = some blocks) :
    blocks = sourceBlocks object.data geometry.symbolSize geometry.dataSymbols := by
  have hdata := hholds.dataSymbols
  unfold assembledBlocks at hblocks
  split at hblocks
  · simp at hblocks
  next henough =>
  extract_lets source at hblocks
  split at hblocks
  · next hall =>
      obtain rfl := Option.some.inj hblocks
      apply List.ext_getElem?
      intro index
      by_cases hindex : index < geometry.dataSymbols
      · have hpresent : (symbolAt assembler index).isSome := by
          apply List.all_eq_true.mp hall
          exact List.mem_map.mpr ⟨index, List.mem_range.mpr (hdata ▸ hindex), rfl⟩
        obtain ⟨block, hblock⟩ := Option.isSome_iff_exists.mp hpresent
        rw [sourceBlock_of_symbolAt hholds hindex hblock]
        simp [source, hdata, hindex, hblock]
      · rw [List.getElem?_eq_none (by simp [source, hdata]; omega),
          List.getElem?_eq_none (by rw [length_sourceBlocks]; omega)]
  next hmissing =>
  split at hblocks
  · simp at hblocks
  next hparity =>
  have hdecodes : assembler.Decodes := by
    refine ⟨by omega, ?_⟩
    simp only [List.all_eq_true, not_forall] at hmissing
    obtain ⟨symbol, hmem, habsent⟩ := hmissing
    obtain ⟨index, hindex, rfl⟩ := List.mem_map.mp hmem
    exact ⟨index, List.mem_range.mp hindex, by simpa using habsent⟩
  have hone := hone hdecodes
  obtain ⟨paritySymbols, encoding, hencoding, htotal⟩ := hholds.encoded
  obtain ⟨parity, _, hnone | ⟨_, hencoded⟩⟩ := symbolBlocks_eq_some hencoding
  · omega
  rw [← hone.1, ← htotal] at hencoded
  have hcount := length_sourceBlocks object.data geometry.symbolSize geometry.dataSymbols
  refine hlaw.source _ _ _ _ _ (fun block hblock => length_of_mem_sourceBlocks hblock)
    hencoded ((List.range assembler.totalSymbols).map (symbolAt assembler)) ?_ ?_ blocks ?_
  · rw [List.length_map, List.length_range, hcount, htotal]
  · intro index block hsymbol
    rw [List.getElem?_map] at hsymbol
    obtain ⟨position, hposition, hsymbol⟩ := Option.map_eq_some_iff.mp hsymbol
    obtain ⟨_, rfl⟩ := List.getElem?_eq_some_iff.mp hposition
    simp only [List.getElem_range] at hsymbol
    by_cases hindex : index < geometry.dataSymbols
    · rw [List.getElem?_append_left (by omega)]
      exact sourceBlock_of_symbolAt hholds hindex hsymbol
    · rw [List.getElem?_append_right (by omega), hcount]
      exact parityBlock_of_symbolAt hlaw hholds hone hencoded htotal (by omega) hsymbol
  · rw [hcount, ← hdata, ← hholds.symbolSize]
    exact hblocks

/-- Cut to its size, the delivered copy is the object. -/
theorem take_assembledBlocks (hlaw : codec.Recovers)
    (hholds : Holds codec object geometry assembler)
    (hfits : object.size ≤ geometry.dataSymbols * geometry.symbolSize)
    (hone : assembler.Decodes → OneEncoding object rateless assembler)
    (hblocks : assembledBlocks codec rateless assembler = some blocks) :
    blocks.flatten.take assembler.originalSize = object.data := by
  rw [assembledBlocks_eq_sourceBlocks hlaw hholds hone hblocks, hholds.originalSize]
  exact take_flatten_sourceBlocks hfits

/-! ### Placing a symbol -/

/-- The assembler with one more symbol. -/
def placeSymbol (assembler : FrameAssembler) (datagram : Sent Datagram) (now : Nat) :
    FrameAssembler :=
  acceptSymbol { assembler with
    totalSymbols := max assembler.totalSymbols datagram.message.header.totalSymbols }
    datagram now

theorem holds_acceptSymbol (hholds : Holds codec object geometry assembler)
    (hsymbol : datagram.message.SymbolOf codec object geometry)
    (htotal : datagram.message.header.totalSymbols ≤ assembler.totalSymbols) (now : Nat) :
    Holds codec object geometry (acceptSymbol assembler datagram now) := by
  unfold acceptSymbol
  split
  · exact hholds
  refine ⟨hholds.dataSymbols, hholds.symbolSize, hholds.originalSize, ?_, hholds.encoded⟩
  intro symbol hmem
  cases List.mem_append.mp hmem with
  | inl hold => exact hholds.symbols symbol hold
  | inr hnew =>
      obtain rfl := List.mem_singleton.mp hnew
      exact ⟨hsymbol, htotal⟩

theorem holds_placeSymbol (hholds : Holds codec object geometry assembler)
    (hsymbol : datagram.message.SymbolOf codec object geometry) (now : Nat) :
    Holds codec object geometry (placeSymbol assembler datagram now) := by
  have hgrown : Holds codec object geometry { assembler with
      totalSymbols := max assembler.totalSymbols datagram.message.header.totalSymbols } := by
    refine ⟨hholds.dataSymbols, hholds.symbolSize, hholds.originalSize, ?_, ?_⟩
    · intro symbol hmem
      obtain ⟨hmade, hle⟩ := hholds.symbols symbol hmem
      exact ⟨hmade, hle.trans (le_max_left _ _)⟩
    · cases le_total datagram.message.header.totalSymbols assembler.totalSymbols with
      | inl hold =>
          simp only [max_eq_left hold]
          exact hholds.encoded
      | inr hnew =>
          simp only [max_eq_right hnew]
          obtain ⟨paritySymbols, blocks, hblocks, htotal, _⟩ := hsymbol.encoded
          exact ⟨paritySymbols, blocks, hblocks, htotal⟩
  exact holds_acceptSymbol hgrown hsymbol (le_max_right _ _) now

theorem holds_freshAssembler {datagram : Datagram}
    (hsymbol : datagram.SymbolOf codec object geometry) (now : Nat) :
    Holds codec object geometry (freshAssembler datagram.header now) := by
  obtain ⟨hgeometry, hsize, paritySymbols, blocks, hblocks, htotal, _⟩ := hsymbol
  refine ⟨?_, ?_, ?_, by simp [freshAssembler], paritySymbols, blocks, hblocks, htotal⟩
  · exact congrArg Geometry.dataSymbols hgeometry
  · exact congrArg Geometry.symbolSize hgeometry
  · exact (congrArg Geometry.originalSize hgeometry).trans hsize

end Conn

end Qlinq
