import XosChain.Header.Merkle
import XosChain.Header.Step

namespace XosChain.Header

open List Function IncrementalMerkle Crypto

variable {c : Crypto} {ds es : List Digest}

namespace BlockHeaderState

variable {g p s : BlockHeaderState} {admits : BlockHeaderState → SignedBlockHeader → Prop} {l l' : List BlockHeaderState}

lemma next_blockrootMerkle {h : SignedBlockHeader} {trust : Bool} (hn : p.next c h trust = .ok s) :
    s.blockrootMerkle = p.blockrootMerkle.append c p.id := by
  iterate 4 obtain ⟨-, hn⟩ := eosAssert_ok hn
  obtain ⟨t, ht, hn⟩ := bind_ok hn
  obtain ⟨-, hn⟩ := eosAssert_ok hn
  obtain ⟨-, hn⟩ := eosAssert_ok hn
  obtain ⟨-, -, hn⟩ := bind_ok hn
  obtain ⟨r, hr, hn⟩ := bind_ok hn
  obtain ⟨-, hn⟩ := eosAssert_ok hn
  cases hn
  obtain ⟨slot, -, ht⟩ := bind_ok ht
  cases ht
  obtain ⟨q, hq, hr⟩ := bind_ok hr
  cases hr
  have hkeep : ∀ m : BlockHeaderState, m.maybePromotePending.blockrootMerkle = m.blockrootMerkle := by
    intro m
    rw [maybePromotePending]
    split_ifs <;> rfl
  obtain ⟨rfl, -⟩ | ⟨_, -, -, rfl⟩ := applyNewProducers_ok hq
  · exact hkeep _
  · exact hkeep _

def ancestors (g : BlockHeaderState) (l : List BlockHeaderState) : List BlockId :=
  (l ++ [g]).tail.reverse.map (·.id)

lemma Chain.blockrootMerkle (h : Chain c admits g l) (hg : g.blockrootMerkle = {}) :
    (l.headD g).blockrootMerkle = (ancestors g l).foldl (append c) {} := by
  induction h with
  | nil => exact hg
  | @cons l s _ _ _ _ hs ih =>
    have hlast : ancestors g (s :: l) = ancestors g l ++ [(l.headD g).id] := by
      cases l <;> simp [ancestors]
    rw [hlast, foldl_append, ← ih]
    exact next_blockrootMerkle hs

theorem blockroot_binds_ancestors (hg : g.blockrootMerkle = {}) (hl : Chain c admits g l) (hl' : Chain c admits g l')
    (hlen : l.length = l'.length) (hsize : l.length ≤ 2 ^ 63)
    (hno : NoCollision c (hashedPairs c (ancestors g l)) (hashedPairs c (ancestors g l')))
    (h : (l.headD g).blockrootMerkle.getRoot = (l'.headD g).blockrootMerkle.getRoot) :
    (ancestors g l).map makeCanonicalLeft = (ancestors g l').map makeCanonicalLeft := by
  rw [hl.blockrootMerkle hg, hl'.blockrootMerkle hg, getRoot_appends (by simpa [ancestors] using hsize),
    getRoot_appends (by simpa [ancestors, hlen] using hsize)] at h
  exact root_binding (by simp [ancestors, hlen]) hno h

def bareGenesis : BlockHeaderState := genesis zero 0 0 0

def twoBlocks (slot : Slot) : Result (List BlockHeaderState) :=
  forgeChain zero bareGenesis [] [⟨1, 0, none⟩, ⟨slot, 0, none⟩]

theorem siblings_same_ancestors : ∃ l l', twoBlocks 2 = .ok l ∧ twoBlocks 3 = .ok l' ∧
    (ancestors bareGenesis l).map makeCanonicalLeft = (ancestors bareGenesis l').map makeCanonicalLeft := by
  have hview : ∀ slot ∈ [2, 3], (twoBlocks slot).map (fun l => (ancestors bareGenesis l, l.length,
      (l.headD bareGenesis).blockrootMerkle.getRoot)) = .ok ([16777216, 33554432], 2, 0) := by decide +kernel
  obtain ⟨l, hl, h⟩ := exists_of_map_ok (hview 2 (by simp))
  obtain ⟨l', hl', h'⟩ := exists_of_map_ok (hview 3 (by simp))
  simp only [Prod.mk.injEq] at h h'
  refine ⟨l, l', hl, hl', blockroot_binds_ancestors rfl (forgeChain_unrestricted hl) (forgeChain_unrestricted hl') ?_ ?_ ?_ ?_⟩
  · rw [h.2.1, h'.2.1]
  · rw [h.2.1]
    norm_num
  · rw [h.1, h'.1]
    simp [hashedPairs, levelPairs, combine, NoCollision]
  · rw [h.2.2, h'.2.2]

end BlockHeaderState

end XosChain.Header
