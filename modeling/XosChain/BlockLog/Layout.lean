import XosChain.BlockLog.Files

namespace XosChain.BlockLog

open Raw List

section

variable {n v : ℕ} {rest : Bytes}

lemma readNumber_littleEndian (hv : v < 256 ^ n) : readNumber n (littleEndian n v ++ rest) = .ok (v, rest) := by
  have hlen := littleEndian_length n v
  rw [readNumber, if_pos (by simp [hlen]), take_left' hlen, drop_left' hlen, ofLittleEndian_littleEndian,
    Nat.mod_eq_of_lt hv]
  rfl

lemma readLast_append (before : Bytes) (hv : v < 256 ^ 8) :
    Stream.readLast ⟨before ++ littleEndian 8 v, false⟩ = .ok v := by
  have hlen := littleEndian_length 8 v
  have hseek : Stream.seek ⟨before ++ littleEndian 8 v, false⟩ ((before ++ littleEndian 8 v).length - 8) =
      .ok (littleEndian 8 v) := by
    rw [Stream.seek, if_neg Bool.false_ne_true, length_append, hlen, Nat.add_sub_cancel, drop_left]
    rfl
  have hread : readNumber 8 (littleEndian 8 v ++ []) = .ok (v, []) := readNumber_littleEndian hv
  rw [append_nil] at hread
  refine eosAssert_bind.mpr ⟨by simp [hlen], result_bind.mpr ⟨_, hseek, result_bind.mpr ⟨_, hread, rfl⟩⟩⟩

def entries (l : List ℕ) : Bytes := l.flatMap (littleEndian 8)

lemma entries_append (l l' : List ℕ) : entries (l ++ l') = entries l ++ entries l' := flatMap_append

lemma entries_singleton (v : ℕ) : entries [v] = littleEndian 8 v := by
  rw [entries, flatMap_singleton]

lemma entries_length (l : List ℕ) : (entries l).length = 8 * l.length := by
  induction l with
  | nil => rfl
  | cons v l ih =>
    rw [entries, flatMap_cons, length_append, littleEndian_length]
    change 8 + (entries l).length = _
    rw [ih, length_cons]
    omega

end

variable {Block Genesis : Type}

structure Content (Block Genesis : Type) where
  genesis : Genesis
  first : ℕ
  blocks : List Block

section

variable (F : Formats Block Genesis)

def header (gs : Genesis) (first : ℕ) : Bytes :=
  littleEndian 4 maxSupportedVersion ++ (littleEndian 4 first ++ (F.packGenesis gs ++ littleEndian 8 npos))

def body : ℕ → List Block → Bytes
  | _, [] => []
  | pos, b :: rest => F.packBlock b ++ (littleEndian 8 pos ++ body (pos + ((F.packBlock b).length + 8)) rest)

def positions : ℕ → List Block → List ℕ
  | _, [] => []
  | pos, b :: rest => pos :: positions (pos + ((F.packBlock b).length + 8)) rest

def Content.start (c : Content Block Genesis) : ℕ := (header F c.genesis c.first).length

def Content.log (c : Content Block Genesis) : Bytes := header F c.genesis c.first ++ body F (c.start F) c.blocks

def Content.index (c : Content Block Genesis) : Bytes := entries (positions F (c.start F) c.blocks)

def Content.add (c : Content Block Genesis) (b : Block) : Content Block Genesis := { c with blocks := c.blocks ++ [b] }

structure Content.Wf (c : Content Block Genesis) : Prop where
  numbers : ∀ pre b post, c.blocks = pre ++ b :: post → (F.blockNum b).val = c.first + pre.length
  first_lt : c.first < 2 ^ 32
  fits : (c.log F).length < 2 ^ 63

variable {F} {pos p : ℕ} {c : Content Block Genesis} {b : Block}

lemma body_append (l l' : List Block) :
    body F pos (l ++ l') = body F pos l ++ body F (pos + (body F pos l).length) l' := by
  induction l generalizing pos with
  | nil => rfl
  | cons b l ih =>
    rw [cons_append, body, body, ih, append_assoc, append_assoc]
    congr 4
    simp only [length_append, littleEndian_length]
    omega

lemma positions_append (l l' : List Block) :
    positions F pos (l ++ l') = positions F pos l ++ positions F (pos + (body F pos l).length) l' := by
  induction l generalizing pos with
  | nil => rfl
  | cons b l ih =>
    rw [cons_append, positions, positions, ih, cons_append, body]
    congr 3
    simp only [length_append, littleEndian_length]
    omega

lemma positions_length (l : List Block) : (positions F pos l).length = l.length := by
  induction l generalizing pos with
  | nil => rfl
  | cons b l ih => rw [positions, length_cons, ih, length_cons]

lemma le_of_mem_positions {l : List Block} (hp : p ∈ positions F pos l) : pos ≤ p := by
  induction l generalizing pos with
  | nil => cases hp
  | cons b l ih =>
    rcases mem_cons.mp hp with rfl | hp
    · exact le_rfl
    · exact le_trans (Nat.le_add_right _ _) (ih hp)

lemma length_le_body (l : List Block) : l.length ≤ (body F pos l).length := by
  induction l generalizing pos with
  | nil => exact le_rfl
  | cons b l ih =>
    have hrest : l.length ≤ (body F (pos + ((F.packBlock b).length + 8)) l).length := ih
    simp only [body, length_append, length_cons, littleEndian_length]
    omega

lemma walkLog_body {fuel endPos : ℕ} {l : List Block} {index : Bytes} (hfuel : l.length < fuel)
    (hfits : pos + (body F pos l).length < 2 ^ 63) (hp : p < pos)
    (hend : (p :: positions F pos l).getLast? = some endPos) :
    walkLog F fuel (body F pos l) p endPos ⟨index, true⟩ = .ok ⟨index ++ entries (positions F pos l), true⟩ := by
  induction l generalizing fuel pos p index with
  | nil =>
    obtain ⟨fuel, rfl⟩ := Nat.exists_eq_succ_of_ne_zero (Nat.ne_zero_of_lt hfuel)
    have hstop : p = endPos := Option.some.inj hend
    rw [hstop, walkLog, if_neg (lt_irrefl _), positions, entries, flatMap_nil, append_nil]
    rfl
  | cons b l ih =>
    obtain ⟨fuel, rfl⟩ := Nat.exists_eq_succ_of_ne_zero (Nat.ne_zero_of_lt hfuel)
    simp only [body, length_append, littleEndian_length, length_cons] at hfits hfuel
    have hpos : pos < 256 ^ 8 := by omega
    rw [positions, getLast?_cons_cons] at hend
    have hlt : p < endPos := by
      rcases mem_cons.mp (mem_of_getLast? hend) with rfl | hmem
      · exact hp
      · exact lt_of_lt_of_le hp (le_trans (Nat.le_add_right _ _) (le_of_mem_positions hmem))
    have hrest : walkLog F fuel (body F (pos + ((F.packBlock b).length + 8)) l) pos endPos
        ⟨index ++ littleEndian 8 pos, true⟩ = .ok ⟨index ++ littleEndian 8 pos ++ entries (positions F _ l), true⟩ :=
      ih (by omega) (by omega) (by omega) hend
    have hunpack : unpacked (F.unpackBlock (body F pos (b :: l))) = .ok _ :=
      congrArg unpacked (F.unpackBlock_pack b _)
    rw [walkLog, if_pos hlt]
    refine result_bind.mpr ⟨_, hunpack, result_bind.mpr ⟨_, readNumber_littleEndian hpos, ?_⟩⟩
    refine result_bind.mpr ⟨⟨index ++ littleEndian 8 pos, true⟩, rfl, hrest.trans ?_⟩
    rw [positions, append_assoc, ← entries_singleton, ← entries_append, singleton_append]

lemma log_add (b : Block) :
    (c.add b).log F = c.log F ++ (F.packBlock b ++ littleEndian 8 (c.log F).length) := by
  have hstart : (c.add b).start F = c.start F := rfl
  rw [Content.log, hstart]
  change header F c.genesis c.first ++ body F (c.start F) (c.blocks ++ [b]) = _
  rw [body_append, ← append_assoc]
  congr 1
  rw [body, body, append_nil, Content.log, length_append]
  rfl

lemma index_add (b : Block) : (c.add b).index F = c.index F ++ littleEndian 8 (c.log F).length := by
  have hstart : (c.add b).start F = c.start F := rfl
  rw [Content.index, hstart]
  change entries (positions F (c.start F) (c.blocks ++ [b])) = _
  rw [positions_append, entries_append, positions, positions, entries_singleton, Content.index, Content.log,
    length_append]
  rfl

lemma index_length (c : Content Block Genesis) : (c.index F).length = 8 * c.blocks.length := by
  rw [Content.index, entries_length, positions_length]

lemma exists_add (hne : c.blocks ≠ []) : ∃ (d : Content Block Genesis) (b : Block), c = d.add b := by
  obtain h | ⟨l, b, hl⟩ := eq_nil_or_concat c.blocks
  · exact absurd h hne
  · refine ⟨{ c with blocks := l }, b, ?_⟩
    rw [Content.add]
    rw [← concat_eq_append, ← hl]

end

end XosChain.BlockLog
