import XosChain.BlockLog.Layout

namespace XosChain.BlockLog

open Raw List Content BlockLog.Stream

variable {Block Genesis : Type} {F : Formats Block Genesis}

section

structure Holds (F : Formats Block Genesis) (c : Content Block Genesis) (s : State Block) : Prop where
  wf : c.Wf F
  block : s.block.bytes = c.log F
  index : s.index.bytes = c.index F
  head : s.head = c.blocks.getLast?
  written : s.genesisWrittenToBlockLog = true
  first : s.firstBlockNum = c.first

variable {c : Content Block Genesis} {s : State Block} {b : Block} {pre post : List Block} {n : ℕ}

def Content.posOf (F : Formats Block Genesis) (c : Content Block Genesis) (pre : List Block) : ℕ :=
  c.start F + (body F (c.start F) pre).length

section

variable (hblocks : c.blocks = pre ++ b :: post)

include hblocks

lemma log_split :
    c.log F = (header F c.genesis c.first ++ body F (c.start F) pre) ++ (F.packBlock b ++
      (littleEndian 8 (c.posOf F pre) ++ body F (c.posOf F pre + ((F.packBlock b).length + 8)) post)) := by
  rw [log, hblocks, body_append, append_assoc]
  rfl

lemma index_split :
    c.index F = entries (positions F (c.start F) pre) ++ (littleEndian 8 (c.posOf F pre) ++
      entries (positions F (c.posOf F pre + ((F.packBlock b).length + 8)) post)) := by
  rw [index, hblocks, positions_append, entries_append]
  rfl

lemma posOf_lt (hwf : c.Wf F) : c.posOf F pre < 2 ^ 63 := by
  have hfits := hwf.fits
  rw [log_split hblocks, length_append, length_append] at hfits
  exact lt_of_le_of_lt (Nat.le_add_right _ _) hfits

lemma readBlock_eq (hblock : s.block.bytes = c.log F) :
    ∃ next, readBlock F s (c.posOf F pre) = .ok (b, next) := by
  have hseek : (s.checkBlock false).block.seek (c.posOf F pre) = .ok _ := rfl
  obtain ⟨rest, hrest⟩ : ∃ rest, s.block.bytes.drop (c.posOf F pre) = F.packBlock b ++ rest := by
    rw [hblock, log_split hblocks]
    refine ⟨_, drop_left' ?_⟩
    rw [length_append]
    rfl
  have hunpack : unpacked (F.unpackBlock (s.block.bytes.drop (c.posOf F pre))) = .ok (b, rest) := by
    rw [hrest, F.unpackBlock_pack]
    rfl
  exact ⟨_, result_bind.mpr ⟨_, hseek, result_bind.mpr ⟨_, hunpack, rfl⟩⟩⟩

end

lemma Holds.head_num (hs : Holds F c s) {head : Block} (hhead : s.head = some head) :
    (F.blockNum head).val + 1 = c.first + c.blocks.length := by
  rw [hs.head] at hhead
  obtain ⟨l, hl⟩ := getLast?_eq_some_iff.mp hhead
  rw [hs.wf.numbers l head [] hl, hl, length_append]
  rfl

lemma getBlockPos_eq (hs : Holds F c s) (hblocks : c.blocks = pre ++ b :: post) :
    getBlockPos F s (F.blockNum b) = .ok (c.posOf F pre) := by
  have hnum := hs.wf.numbers pre b post hblocks
  have hpos := posOf_lt hblocks hs.wf
  cases hhead : s.head with
  | none =>
    rw [hs.head, hblocks] at hhead
    exact absurd (getLast?_eq_none_iff.mp hhead) (by simp)
  | some head =>
    have hlast := hs.head_num hhead
    rw [hblocks, length_append, length_cons] at hlast
    obtain ⟨rest, hrest⟩ : ∃ rest, s.index.bytes.drop (8 * sub32 (F.blockNum b) s.firstBlockNum) =
        littleEndian 8 (c.posOf F pre) ++ rest := by
      rw [hs.index, hs.first, hnum, sub32_of_le (Nat.le_add_right _ _), Nat.add_sub_cancel_left, index_split hblocks]
      exact ⟨_, drop_left' (by rw [entries_length, positions_length])⟩
    have hseek : (s.checkIndex false).index.seek (8 * sub32 (F.blockNum b) s.firstBlockNum) =
        .ok (littleEndian 8 (c.posOf F pre) ++ rest) := congrArg Except.ok hrest
    rw [getBlockPos, hhead]
    dsimp only
    rw [if_pos ⟨by omega, by rw [hs.first]; omega⟩]
    exact result_bind.mpr ⟨_, hseek, result_bind.mpr ⟨_, readNumber_littleEndian (by omega), rfl⟩⟩

lemma readBlockByNum_eq (hs : Holds F c s) (n : ℕ) :
    readBlockByNum F s n = .ok (c.blocks.find? fun b => (F.blockNum b).val = n) := by
  cases hfind : c.blocks.find? fun b => (F.blockNum b).val = n with
  | some b =>
    obtain ⟨hnum, pre, post, hblocks, -⟩ := find?_eq_some_iff_append.mp hfind
    obtain rfl : (F.blockNum b).val = n := of_decide_eq_true hnum
    have hpos := posOf_lt hblocks hs.wf
    obtain ⟨next, hread⟩ := readBlock_eq hblocks hs.block
    refine result_bind.mpr ⟨_, getBlockPos_eq hs hblocks, ?_⟩
    rw [readBlockAt, if_neg (by rw [npos]; omega)]
    exact result_bind.mpr ⟨_, hread, eosAssert_bind.mpr ⟨rfl, rfl⟩⟩
  | none =>
    have hnone : getBlockPos F s n = .ok npos := by
      rw [getBlockPos]
      cases hhead : s.head with
      | none => rfl
      | some head =>
        have hlast := hs.head_num hhead
        refine if_neg fun hin => ?_
        rw [hs.first] at hin
        have hi : n - c.first < c.blocks.length := by omega
        have hsplit : c.blocks = c.blocks.take (n - c.first) ++ c.blocks[n - c.first] :: c.blocks.drop (n - c.first + 1) := by
          rw [← drop_eq_getElem_cons hi, take_append_drop]
        have hnum := hs.wf.numbers _ _ _ hsplit
        rw [length_take_of_le hi.le] at hnum
        have hmiss := find?_eq_none.mp hfind _ (getElem_mem hi)
        exact hmiss (decide_eq_true (by omega))
    refine result_bind.mpr ⟨_, hnone, ?_⟩
    rw [readBlockAt, if_pos rfl]
    rfl

end

section

variable {c : Content Block Genesis} {s : State Block} {b : Block}

lemma append_holds (hs : Holds F c s) (hwf : (c.add b).Wf F) :
    ∃ s', append F s b = .ok s' ∧ Holds F (c.add b) s' := by
  have hnum : (F.blockNum b).val = c.first + c.blocks.length := hwf.numbers c.blocks b [] rfl
  have hpos : s.index.bytes.length = 8 * sub32 (F.blockNum b) s.firstBlockNum := by
    rw [hs.index, index_length, hs.first, hnum, sub32_of_le (Nat.le_add_right _ _), Nat.add_sub_cancel_left]
  refine ⟨_, eosAssert_bind.mpr ⟨hs.written, eosAssert_bind.mpr ⟨hpos, rfl⟩⟩, ?_⟩
  refine ⟨hwf, ?_, ?_, ?_, hs.written, hs.first⟩
  · change s.block.bytes ++ F.packBlock b ++ littleEndian 8 s.block.bytes.length = _
    rw [hs.block, log_add, append_assoc]
  · change s.index.bytes ++ littleEndian 8 s.block.bytes.length = _
    rw [hs.block, hs.index, index_add]
  · change some b = (c.blocks ++ [b]).getLast?
    rw [getLast?_concat]

lemma drop_version (v : ℕ) (rest : Bytes) : (littleEndian 4 v ++ rest).drop 4 = rest :=
  drop_left' (littleEndian_length 4 v)

lemma header_version (gs : Genesis) (first v : ℕ) : header F gs first = littleEndian 4 maxSupportedVersion ++
    (littleEndian 4 v ++ (littleEndian 4 first ++ (F.packGenesis gs ++ littleEndian 8 npos))).drop 4 := by
  rw [drop_version]
  rfl

lemma reset_spec (s : State Block) (gs : Genesis) {firstBlock : Option Block} {num : Fin (2 ^ 32)}
    (hnum : ∀ b, firstBlock = some b → F.blockNum b = num) :
    ∃ s', reset F s gs firstBlock num = .ok s' ∧
      s'.block.bytes = log F ⟨gs, num, firstBlock.toList⟩ ∧
      s'.index.bytes = index F ⟨gs, num, firstBlock.toList⟩ ∧
      s'.genesisWrittenToBlockLog = true ∧ s'.firstBlockNum = num ∧ s'.head = firstBlock.or s.head := by
  cases firstBlock with
  | none =>
    refine ⟨_, rfl, ?_, rfl, rfl, rfl, rfl⟩
    change littleEndian 4 maxSupportedVersion ++ List.drop 4 (((([] ++ littleEndian 4 0) ++ littleEndian 4 num) ++
      F.packGenesis gs) ++ littleEndian 8 npos) = header F gs num ++ []
    rw [header_version gs num 0]
    simp only [nil_append, append_assoc, append_nil]
  | some b =>
    have hpos : ([] : Bytes).length = 8 * sub32 (F.blockNum b) num := by
      rw [hnum b rfl, sub32_of_le le_rfl, Nat.sub_self]
      rfl
    have hlength : (header F gs num).length = ((((([] : Bytes) ++ littleEndian 4 0) ++ littleEndian 4 num) ++
        F.packGenesis gs) ++ littleEndian 8 npos).length := by
      simp only [header, length_append, littleEndian_length, length_nil]
      omega
    refine ⟨_, result_bind.mpr ⟨_, rfl, result_bind.mpr ⟨_, rfl, result_bind.mpr ⟨_, rfl, result_bind.mpr ⟨_, rfl,
      result_bind.mpr ⟨_, eosAssert_bind.mpr ⟨rfl, eosAssert_bind.mpr ⟨hpos, rfl⟩⟩, rfl⟩⟩⟩⟩⟩, ?_, ?_, ?_, ?_, ?_⟩
    · change littleEndian 4 maxSupportedVersion ++ List.drop 4 (((((([] ++ littleEndian 4 0) ++ littleEndian 4 num) ++
        F.packGenesis gs) ++ littleEndian 8 npos) ++ F.packBlock b) ++ littleEndian 8 _) =
        header F gs num ++ (F.packBlock b ++ (littleEndian 8 (header F gs num).length ++ []))
      rw [hlength, header_version gs num 0]
      simp only [nil_append, append_assoc, append_nil, drop_version]
      rfl
    · change [] ++ littleEndian 8 _ = entries [(header F gs num).length]
      rw [entries_singleton, hlength]
      rfl
    · rfl
    · rfl
    · rfl

end

section

variable {c : Content Block Genesis} {s t : State Block} {b : Block} {index : Bytes}

def lastEntry (bytes : Bytes) : ℕ := ofLittleEndian (bytes.drop (bytes.length - 8))

lemma readLast_ok_iff {bytes : Bytes} {v : ℕ} :
    readLast ⟨bytes, false⟩ = .ok v ↔ 8 ≤ bytes.length ∧ v = lastEntry bytes := by
  constructor
  · intro h
    obtain ⟨hlen, h⟩ := eosAssert_ok h
    obtain ⟨rest, hrest, h⟩ := bind_ok h
    obtain rfl : bytes.drop (bytes.length - 8) = rest := Except.ok.inj hrest
    have hle : 8 ≤ (bytes.drop (bytes.length - 8)).length := by
      rw [length_drop]
      dsimp only at hlen
      omega
    rw [readNumber, if_pos hle] at h
    refine ⟨hlen, (Except.ok.inj h).symm.trans ?_⟩
    rw [lastEntry, take_of_length_le]
    rw [length_drop]
    omega
  · rintro ⟨hlen, rfl⟩
    have hlength : (bytes.drop (bytes.length - 8)).length = 8 := by
      rw [length_drop]
      omega
    refine eosAssert_bind.mpr ⟨hlen, result_bind.mpr ⟨_, rfl, ?_⟩⟩
    rw [readNumber, if_pos hlength.ge]
    refine congrArg Except.ok ?_
    rw [take_of_length_le hlength.le]
    rfl

lemma lastEntry_append (before : Bytes) {v : ℕ} (hv : v < 256 ^ 8) : lastEntry (before ++ littleEndian 8 v) = v :=
  (readLast_ok_iff.mp (readLast_append before hv)).2.symm

lemma header_length (c : Content Block Genesis) : 16 ≤ c.start F := by
  simp only [start, header, length_append, littleEndian_length]
  omega

lemma log_length (c : Content Block Genesis) : 16 ≤ (c.log F).length := by
  rw [log, length_append]
  exact le_trans (header_length c) (Nat.le_add_right _ _)

lemma length_log_add_lt (hwf : (c.add b).Wf F) : (c.log F).length < 256 ^ 8 := by
  have hfits := hwf.fits
  rw [log_add, length_append] at hfits
  omega

lemma readHeader_ok_iff (hwf : c.Wf F) (hblock : s.block.bytes = c.log F) :
    readHeader s = .ok t ↔ 0 < c.first ∧
      t = { s.checkBlock false with version := 2, genesisWrittenToBlockLog := true, firstBlockNum := c.first } := by
  have hseek : (s.checkBlock false).block.seek 0 = .ok (c.log F) := congrArg Except.ok hblock
  obtain ⟨rest, hrest⟩ : ∃ rest, c.log F = littleEndian 4 2 ++ (littleEndian 4 c.first ++ rest) := by
    rw [log, header, append_assoc, append_assoc]
    exact ⟨_, rfl⟩
  have hversion : readNumber 4 (c.log F) = .ok (2, littleEndian 4 c.first ++ rest) := by
    rw [hrest]
    exact readNumber_littleEndian (by omega)
  have hnumber : readNumber 4 (littleEndian 4 c.first ++ rest) = .ok (c.first, rest) :=
    readNumber_littleEndian hwf.first_lt
  constructor
  · intro h
    obtain ⟨r, hr, h⟩ := bind_ok h
    obtain rfl := Except.ok.inj (hseek.symm.trans hr)
    obtain ⟨r, hr, h⟩ := bind_ok h
    obtain rfl := Except.ok.inj (hversion.symm.trans hr)
    obtain ⟨-, h⟩ := eosAssert_ok h
    obtain ⟨-, h⟩ := eosAssert_ok h
    obtain ⟨first, hfirst, h⟩ := bind_ok h
    rw [readFirstBlockNum, if_pos (by omega), hnumber] at hfirst
    obtain ⟨hpos, hfirst⟩ := eosAssert_ok hfirst
    obtain rfl : c.first = first := Except.ok.inj hfirst
    exact ⟨hpos, (Except.ok.inj h).symm⟩
  · rintro ⟨hpos, rfl⟩
    have hfirst : readFirstBlockNum 2 (littleEndian 4 c.first ++ rest) = .ok c.first := by
      rw [readFirstBlockNum, if_pos (by omega), hnumber]
      exact eosAssert_bind.mpr ⟨hpos, rfl⟩
    refine result_bind.mpr ⟨_, hseek, result_bind.mpr ⟨_, hversion, ?_⟩⟩
    refine eosAssert_bind.mpr ⟨by decide, eosAssert_bind.mpr ⟨by decide, ?_⟩⟩
    exact result_bind.mpr ⟨_, hfirst, rfl⟩

lemma readHead_eq (hwf : c.Wf F) (hblock : s.block.bytes = c.log F) : readHead F s = .ok c.blocks.getLast? := by
  have hlength := log_length (F := F) c
  rw [readHead, if_neg (by rw [hblock]; omega)]
  by_cases hne : c.blocks = []
  · have hlog : c.log F = (littleEndian 4 2 ++ (littleEndian 4 c.first ++ F.packGenesis c.genesis)) ++
        littleEndian 8 npos := by
      rw [log, hne, body, header, append_nil]
      simp only [append_assoc]
      rfl
    have hlast : (s.checkBlock false).block.readLast = .ok npos := by
      change readLast ⟨s.block.bytes, false⟩ = _
      rw [hblock, hlog]
      exact readLast_append _ (by rw [npos]; omega)
    refine result_bind.mpr ⟨_, hlast, ?_⟩
    rw [if_pos rfl, hne]
    rfl
  · obtain ⟨d, b, rfl⟩ := exists_add hne
    have hpos := length_log_add_lt hwf
    have hfits := hwf.fits
    have hlast : (s.checkBlock false).block.readLast = .ok (d.log F).length := by
      change readLast ⟨s.block.bytes, false⟩ = _
      rw [hblock, log_add, ← append_assoc]
      exact readLast_append _ hpos
    have hposOf : (d.log F).length = (d.add b).posOf F d.blocks := by
      rw [log, length_append]
      rfl
    obtain ⟨next, hread⟩ : ∃ next, readBlock F s ((d.add b).posOf F d.blocks) = .ok (b, next) := readBlock_eq rfl hblock
    rw [log_add, length_append] at hfits
    refine result_bind.mpr ⟨_, hlast, ?_⟩
    rw [if_neg (by rw [npos]; omega), hposOf]
    refine result_bind.mpr ⟨_, hread, ?_⟩
    change Except.ok (some b) = .ok (d.blocks ++ [b]).getLast?
    rw [getLast?_concat]

lemma lastEntry_log (hwf : (c.add b).Wf F) : lastEntry ((c.add b).log F) = (c.log F).length := by
  rw [log_add, ← append_assoc]
  exact lastEntry_append _ (length_log_add_lt hwf)

lemma lastEntry_index (hwf : (c.add b).Wf F) : lastEntry ((c.add b).index F) = (c.log F).length := by
  rw [index_add]
  exact lastEntry_append _ (length_log_add_lt hwf)

lemma constructIndex_eq (hwf : c.Wf F) (hne : c.blocks ≠ []) (hblock : s.block.bytes = c.log F) (hversion : s.version = 2) :
    constructIndex F s = .ok { s.checkBlock false with index := ⟨c.index F, true⟩ } := by
  have hstart := header_length (F := F) c
  obtain ⟨d, b, hd⟩ := exists_add hne
  have hlast : readLast ⟨s.block.bytes, false⟩ = .ok (d.log F).length := by
    refine readLast_ok_iff.mpr ⟨?_, ?_⟩
    · have := log_length (F := F) c
      rw [hblock]
      omega
    · rw [hblock, hd, lastEntry_log (hd ▸ hwf)]
  have hgenesis : unpacked (F.unpackGenesis (s.block.bytes.drop 8)) =
      .ok (c.genesis, littleEndian 8 npos ++ body F (c.start F) c.blocks) := by
    have hdrop : s.block.bytes.drop 8 =
        F.packGenesis c.genesis ++ (littleEndian 8 npos ++ body F (c.start F) c.blocks) := by
      rw [hblock, log, header]
      simp only [append_assoc]
      rw [← append_assoc]
      exact drop_left' (by rw [length_append, littleEndian_length, littleEndian_length])
    rw [hdrop, F.unpackGenesis_pack]
    rfl
  have htotem : skipTotem { s.checkBlock false with index := {} } (littleEndian 8 npos ++ body F (c.start F) c.blocks) =
      .ok (body F (c.start F) c.blocks) := by
    rw [skipTotem, if_pos (by change s.version > 1; omega), readNumber_littleEndian (by rw [npos]; omega)]
    rfl
  have hwalk : walkLog F (s.block.bytes.length + 1) (body F (c.start F) c.blocks) 8 (d.log F).length ⟨[], true⟩ =
      .ok ⟨[] ++ entries (positions F (c.start F) c.blocks), true⟩ := by
    have hfits := hwf.fits
    refine walkLog_body ?_ ?_ (by omega) ?_
    · have hlength : c.blocks.length ≤ (body F (c.start F) c.blocks).length := length_le_body c.blocks
      rw [hblock, log, length_append]
      omega
    · rw [log, length_append] at hfits
      exact hfits
    · have hpositions : positions F (c.start F) c.blocks = positions F (d.start F) d.blocks ++ [(d.log F).length] := by
        rw [hd]
        change positions F (d.start F) (d.blocks ++ [b]) = _
        rw [positions_append, log, length_append]
        rfl
      rw [hpositions, ← cons_append, getLast?_concat]
  have hpos : (if s.version = 1 then 4 else 8) = 8 := if_neg (by omega)
  refine result_bind.mpr ⟨_, hlast, ?_⟩
  change (seek ⟨s.block.bytes, false⟩ (if s.version = 1 then 4 else 8) >>= _) = _
  rw [hpos]
  refine result_bind.mpr ⟨_, rfl, result_bind.mpr ⟨_, hgenesis, result_bind.mpr ⟨_, htotem, ?_⟩⟩⟩
  change (walkLog F (s.block.bytes.length + 1) _ (if s.version = 1 then 4 else 8) _ ⟨[], true⟩ >>= _) = _
  rw [hpos]
  refine result_bind.mpr ⟨_, hwalk, ?_⟩
  rw [nil_append]
  rfl

def opened (F : Formats Block Genesis) (c : Content Block Genesis) (index : Bytes) : State Block where
  block := ⟨c.log F, false⟩
  index := if index ≠ [] ∧ lastEntry index = lastEntry (c.index F) then ⟨index, false⟩ else ⟨c.index F, true⟩
  head := c.blocks.getLast?
  genesisWrittenToBlockLog := true
  version := 2
  firstBlockNum := c.first

lemma lastEntry_eq (hwf : c.Wf F) (hne : c.blocks ≠ []) : lastEntry (c.log F) = lastEntry (c.index F) := by
  obtain ⟨d, b, rfl⟩ := exists_add hne
  rw [lastEntry_log hwf, lastEntry_index hwf]

lemma checkHeads_ok_iff (hwf : c.Wf F) (hne : c.blocks ≠ []) (hblock : s.block = ⟨c.log F, false⟩)
    (hversion : s.version = 2) :
    checkHeads F s = .ok t ↔ (s.index.bytes = [] ∨ 8 ≤ s.index.bytes.length) ∧
      t = { s with index := if s.index.bytes ≠ [] ∧ lastEntry s.index.bytes = lastEntry (c.index F) then
        ⟨s.index.bytes, false⟩ else ⟨c.index F, true⟩ } := by
  have hlog : readLast ⟨s.block.bytes, false⟩ = .ok (lastEntry (c.index F)) := by
    have hlength := log_length (F := F) c
    refine readLast_ok_iff.mpr ?_
    rw [hblock, lastEntry_eq hwf hne]
    exact ⟨by dsimp only; omega, rfl⟩
  have hblock' : s.block.bytes = c.log F := by rw [hblock]
  have hcheck : ({ s.checkBlock false with index := ⟨c.index F, true⟩ } : State Block) =
      { s with index := ⟨c.index F, true⟩ } := by
    rw [State.checkBlock, hblock]
    rfl
  rw [checkHeads]
  by_cases hempty : s.index.bytes = []
  · rw [if_neg (by simp [hempty]), constructIndex_eq hwf hne hblock' hversion, hcheck,
      if_neg (fun h => h.1 hempty)]
    exact ⟨fun h => ⟨.inl hempty, (Except.ok.inj h).symm⟩, fun h => congrArg Except.ok h.2.symm⟩
  · have hkept : ((s.checkBlock false).checkIndex false : State Block) = { s with index := ⟨s.index.bytes, false⟩ } := by
      rw [State.checkBlock, State.checkIndex, hblock]
      rfl
    have hconstruct : constructIndex F ((s.checkBlock false).checkIndex false) =
        .ok { s with index := ⟨c.index F, true⟩ } := by
      rw [constructIndex_eq hwf hne (s := (s.checkBlock false).checkIndex false) hblock' hversion]
      refine congrArg Except.ok ?_
      rw [State.checkBlock, State.checkIndex, State.checkBlock, hblock]
      rfl
    rw [if_pos (by simpa using hempty)]
    constructor
    · intro h
      obtain ⟨blockPos, hpos, h⟩ := bind_ok h
      obtain rfl := Except.ok.inj (hlog.symm.trans hpos)
      obtain ⟨indexPos, hindex, h⟩ := bind_ok h
      have hlast : readLast ⟨s.index.bytes, false⟩ = .ok indexPos := hindex
      obtain ⟨hlen, rfl⟩ := readLast_ok_iff.mp hlast
      refine ⟨.inr hlen, ?_⟩
      rcases lt_trichotomy (lastEntry (c.index F)) (lastEntry s.index.bytes) with hlt | heq | hgt
      · rw [if_pos hlt, hconstruct] at h
        rw [if_neg (fun h => hlt.ne h.2.symm)]
        exact (Except.ok.inj h).symm
      · rw [if_neg heq.not_lt, if_neg heq.symm.not_lt, hkept] at h
        rw [if_pos ⟨hempty, heq.symm⟩]
        exact (Except.ok.inj h).symm
      · rw [if_neg hgt.not_gt, if_pos hgt, hconstruct] at h
        rw [if_neg (fun h => hgt.ne h.2)]
        exact (Except.ok.inj h).symm
    · rintro ⟨hlen, rfl⟩
      have hindex : readLast ⟨s.index.bytes, false⟩ = .ok (lastEntry s.index.bytes) :=
        readLast_ok_iff.mpr ⟨hlen.resolve_left hempty, rfl⟩
      refine result_bind.mpr ⟨_, hlog, result_bind.mpr ⟨_, hindex, ?_⟩⟩
      rcases lt_trichotomy (lastEntry (c.index F)) (lastEntry s.index.bytes) with hlt | heq | hgt
      · rw [if_pos hlt, hconstruct, if_neg (fun h => hlt.ne h.2.symm)]
      · rw [if_neg heq.not_lt, if_neg heq.symm.not_lt, hkept, if_pos ⟨hempty, heq.symm⟩]
        rfl
      · rw [if_neg hgt.not_gt, if_pos hgt, hconstruct, if_neg (fun h => hgt.ne h.2)]

lemma openFiles_ok_iff (hwf : c.Wf F) : openFiles F (c.log F) index = .ok t ↔
    (0 < c.first ∧ c.blocks ≠ [] ∧ (index = [] ∨ 8 ≤ index.length)) ∧ t = opened F c index := by
  have hlength := log_length (F := F) c
  rw [openFiles, if_pos (by omega)]
  constructor
  · intro h
    obtain ⟨s, hs, h⟩ := bind_ok h
    obtain ⟨hfirst, rfl⟩ := (readHeader_ok_iff (c := c) hwf rfl).mp hs
    obtain ⟨head, hhead, h⟩ := bind_ok h
    have hread := readHead_eq (c := c) (s := { State.checkBlock { block := { bytes := c.log F }, index := { bytes := index } }
      false with version := 2, genesisWrittenToBlockLog := true, firstBlockNum := c.first }) hwf rfl
    obtain rfl := Except.ok.inj (hread.symm.trans hhead)
    obtain ⟨b, hb, h⟩ := bind_ok h
    cases hlast : c.blocks.getLast? with
    | none =>
      rw [hlast] at hb
      cases hb
    | some last =>
      rw [hlast] at hb
      obtain rfl : last = b := Except.ok.inj hb
      have hne : c.blocks ≠ [] := by
        rintro hnil
        rw [hnil] at hlast
        cases hlast
      obtain ⟨hindex, rfl⟩ := (checkHeads_ok_iff hwf hne rfl rfl).mp h
      refine ⟨⟨hfirst, hne, hindex⟩, ?_⟩
      rw [opened, hlast]
      rfl
  · rintro ⟨⟨hfirst, hne, hindex⟩, rfl⟩
    have hread := readHead_eq (c := c) (s := { State.checkBlock { block := { bytes := c.log F }, index := { bytes := index } }
      false with version := 2, genesisWrittenToBlockLog := true, firstBlockNum := c.first }) hwf rfl
    obtain ⟨last, hlast⟩ := Option.ne_none_iff_exists'.mp (mt getLast?_eq_none_iff.mp hne)
    refine result_bind.mpr ⟨_, (readHeader_ok_iff (c := c) hwf rfl).mpr ⟨hfirst, rfl⟩, ?_⟩
    refine result_bind.mpr ⟨_, hread, result_bind.mpr ⟨last, ?_, ?_⟩⟩
    · rw [hlast]
      rfl
    · refine (checkHeads_ok_iff hwf hne rfl rfl).mpr ⟨hindex, ?_⟩
      rw [opened, hlast]
      rfl

end

end XosChain.BlockLog
