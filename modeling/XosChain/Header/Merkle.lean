import Mathlib.Data.Nat.Size
import XosChain.Header.BlockHeader

namespace XosChain.Header

open List Function Crypto

section

variable (c : Crypto)

def hashCanonicalPair (l r : Digest) : Digest := c.hashPair (makeCanonicalLeft l) (makeCanonicalRight r)

def combine : List Digest → List Digest
  | [] => []
  | [d] => [hashCanonicalPair c d d]
  | l :: r :: ids => hashCanonicalPair c l r :: combine ids

lemma length_combine (ids : List Digest) : (combine c ids).length = (ids.length + 1) / 2 := by
  fun_induction combine c ids with
  | case1 => rfl
  | case2 => simp
  | case3 l r ids ih => simp only [length_cons, ih]; omega

def merkle (ids : List Digest) : Result Digest :=
  if ids.length > 1 then
    if ids.length > 2 ^ 31 then .error ⟨.undefinedBehavior, "signed overflow of 2 * i"⟩
    else merkle (combine c ids)
  else pure (ids.headD 0)
termination_by ids.length
decreasing_by rw [length_combine]; omega

lemma merkle_eq {ids : List Digest} (h : ids.length ≤ 2 ^ 31) :
    merkle c ids = pure (((combine c)^[Nat.clog 2 ids.length] ids).headD 0) := by
  fun_induction merkle c ids with
  | case1 ids _ hlong => omega
  | case2 ids hmore _ ih =>
    rw [Nat.clog_of_two_le one_lt_two hmore, iterate_succ_apply, ih (by rw [length_combine]; omega),
      length_combine]
    rfl
  | case3 ids hone => rw [Nat.clog_of_right_le_one (by omega), iterate_zero_apply]

lemma merkle_overflows {ids : List Digest} (h : 2 ^ 31 < ids.length) :
    merkle c ids = .error ⟨.undefinedBehavior, "signed overflow of 2 * i"⟩ := by
  rw [merkle, if_pos (by omega), if_pos h]

end

section

def levelPairs : List Digest → List (Digest × Digest)
  | [] => []
  | [d] => [(makeCanonicalLeft d, makeCanonicalRight d)]
  | l :: r :: ids => (makeCanonicalLeft l, makeCanonicalRight r) :: levelPairs ids

def hashedPairs (c : Crypto) (ids : List Digest) : List (Digest × Digest) :=
  if ids.length > 1 then levelPairs ids ++ hashedPairs c (combine c ids) else []
termination_by ids.length
decreasing_by rw [length_combine]; omega

def NoCollision (c : Crypto) (ps qs : List (Digest × Digest)) : Prop :=
  ∀ p ∈ ps, ∀ q ∈ qs, makeCanonicalLeft (c.hashPair p.1 p.2) = makeCanonicalLeft (c.hashPair q.1 q.2) → p = q

variable {c : Crypto} {ds es : List Digest} {r : Digest}

lemma makeCanonicalLeft_right (d : Digest) : makeCanonicalLeft (makeCanonicalRight d) = makeCanonicalLeft d := by
  rw [makeCanonicalLeft, makeCanonicalRight, Nat.and_or_distrib_right]
  simp [makeCanonicalLeft]

lemma left_of_right {d e : Digest} (h : makeCanonicalRight d = makeCanonicalRight e) :
    makeCanonicalLeft d = makeCanonicalLeft e := by
  rw [← makeCanonicalLeft_right d, h, makeCanonicalLeft_right]

lemma combine_binding (hlen : ds.length = es.length) (hno : NoCollision c (levelPairs ds) (levelPairs es))
    (h : (combine c ds).map makeCanonicalLeft = (combine c es).map makeCanonicalLeft) :
    ds.map makeCanonicalLeft = es.map makeCanonicalLeft := by
  fun_induction combine c ds generalizing es with
  | case1 => rw [eq_nil_of_length_eq_zero hlen.symm]
  | case2 d =>
    obtain ⟨e, rfl⟩ := length_eq_one_iff.mp hlen.symm
    have hp := Prod.mk.inj (hno _ (mem_singleton_self _) _ (mem_singleton_self _) (cons.inj h).1)
    rw [map_singleton, hp.1, map_singleton]
  | case3 l r ds ih =>
    rcases es with _ | ⟨l', _ | ⟨r', es⟩⟩
    · cases hlen
    · cases hlen
    · obtain ⟨hhead, htail⟩ := cons.inj h
      have hp := Prod.mk.inj (hno _ mem_cons_self _ mem_cons_self hhead)
      have hrest := ih (by simpa using hlen)
        (fun p hp q hq => hno p (mem_cons_of_mem _ hp) q (mem_cons_of_mem _ hq)) htail
      simp only [map_cons, hp.1, left_of_right hp.2, hrest]

lemma hashedPairs_of_length (c : Crypto) (ds : List Digest) (h : 1 < ds.length) :
    hashedPairs c ds = levelPairs ds ++ hashedPairs c (combine c ds) := by
  rw [hashedPairs, if_pos h]

def IncrementalMerkle.root (c : Crypto) (ds : List Digest) : Digest := ((combine c)^[Nat.clog 2 ds.length] ds).headD 0

lemma root_binding (hlen : ds.length = es.length) (hno : NoCollision c (hashedPairs c ds) (hashedPairs c es))
    (h : IncrementalMerkle.root c ds = IncrementalMerkle.root c es) : ds.map makeCanonicalLeft = es.map makeCanonicalLeft := by
  fun_induction hashedPairs c ds generalizing es with
  | case1 ds hmore ih =>
    have hmore' : 1 < es.length := hlen ▸ hmore
    rw [hashedPairs_of_length c es hmore'] at hno
    rw [IncrementalMerkle.root, IncrementalMerkle.root, Nat.clog_of_two_le one_lt_two hmore, Nat.clog_of_two_le one_lt_two hmore', iterate_succ_apply,
      iterate_succ_apply] at h
    refine combine_binding hlen (fun p hp q hq => hno p (mem_append_left _ hp) q (mem_append_left _ hq)) (ih ?_ ?_ ?_)
    · rw [length_combine, length_combine, hlen]
    · exact fun p hp q hq => hno p (mem_append_right _ hp) q (mem_append_right _ hq)
    · rw [IncrementalMerkle.root, IncrementalMerkle.root, length_combine, length_combine]
      exact h
  | case2 ds hone =>
    rcases ds with _ | ⟨d, _ | ⟨d', ds⟩⟩
    · rw [eq_nil_of_length_eq_zero hlen.symm]
    · obtain ⟨e, rfl⟩ := length_eq_one_iff.mp hlen.symm
      simpa [IncrementalMerkle.root] using congrArg makeCanonicalLeft h
    · simp at hone

lemma merkle_ok (h : merkle c ds = .ok r) : ds.length ≤ 2 ^ 31 ∧ IncrementalMerkle.root c ds = r := by
  have hfits : ds.length ≤ 2 ^ 31 := by
    by_contra hlong
    rw [merkle, if_pos (by omega), if_pos (by omega)] at h
    cases h
  rw [merkle_eq c hfits] at h
  exact ⟨hfits, Except.ok.inj h⟩

theorem merkle_binding (hlen : ds.length = es.length) (hno : NoCollision c (hashedPairs c ds) (hashedPairs c es))
    (hds : merkle c ds = .ok r) (hes : merkle c es = .ok r) :
    ds.map makeCanonicalLeft = es.map makeCanonicalLeft :=
  root_binding hlen hno ((merkle_ok hds).2.trans (merkle_ok hes).2.symm)

def splitHash (l r : Digest) : Digest := Nat.pair l r / 2 * 256 + Nat.pair l r % 2 * 128

def splitCrypto : Crypto := { zero with hashPair := splitHash }

lemma splitHash_injective : Injective2 splitHash := by
  intro l l' r r' h
  have hsplit : (Nat.pair l r / 2 * 256 + Nat.pair l r % 2 * 128 : ℕ) =
      Nat.pair l' r' / 2 * 256 + Nat.pair l' r' % 2 * 128 := h
  exact Nat.pair_eq_pair.mp (by omega)

lemma merkle_three (c : Crypto) (a b d : Digest) :
    merkle c [a, b, d] = .ok (hashCanonicalPair c (hashCanonicalPair c a b) (hashCanonicalPair c d d)) := by
  simp [merkle, combine]
  rfl

theorem merkle_binding_fails_for_injective :
    Injective2 splitCrypto.hashPair ∧ merkle splitCrypto [0, 128, 5] = merkle splitCrypto [1, 128, 5] ∧
      [0, 128, 5].map makeCanonicalLeft ≠ [1, 128, 5].map makeCanonicalLeft := by
  refine ⟨splitHash_injective, ?_, by decide⟩
  rw [merkle_three, merkle_three]
  decide

theorem merkle_binding_at_three :
    [1, 130, 5].map makeCanonicalLeft = [129, 2, 133].map makeCanonicalLeft := by
  have hroot : merkle splitCrypto [129, 2, 133] = merkle splitCrypto [1, 130, 5] := by
    rw [merkle_three, merkle_three]
    decide
  have hlen : [1, 130, 5].length = [129, 2, 133].length := rfl
  apply merkle_binding hlen _ (merkle_three splitCrypto 1 130 5) (hroot.trans (merkle_three splitCrypto 1 130 5))
  simp [hashedPairs, combine, levelPairs, NoCollision]
  decide

end

namespace IncrementalMerkle

section

def Smeared (v k x : ℕ) : Prop := ∀ i, x.testBit i = true ↔ ∃ j < k, v.testBit (i + j) = true

lemma Smeared.double {v k x : ℕ} (h : Smeared v k x) : Smeared v (k + k) (x ||| x >>> k) := by
  intro i
  rw [Nat.testBit_or, Nat.testBit_shiftRight, Bool.or_eq_true, h i, h (k + i)]
  constructor
  · rintro (⟨j, hj, hv⟩ | ⟨j, hj, hv⟩)
    · exact ⟨j, by omega, hv⟩
    · exact ⟨k + j, by omega, by rwa [← Nat.add_assoc, Nat.add_comm i k]⟩
  · rintro ⟨j, hj, hv⟩
    by_cases hk : j < k
    · exact .inl ⟨j, hk, hv⟩
    · exact .inr ⟨j - k, by omega, by rwa [show k + i + (j - k) = i + j by omega]⟩

lemma Smeared.eq {v x : ℕ} (h : Smeared v 64 x) (hv : v < 2 ^ 64) : x = 2 ^ v.size - 1 := by
  apply Nat.eq_of_testBit_eq
  intro i
  rw [Bool.eq_iff_iff, h i, Nat.testBit_two_pow_sub_one, decide_eq_true_iff, Nat.lt_size]
  constructor
  · rintro ⟨j, _, hb⟩
    exact (Nat.pow_le_pow_right two_pos (Nat.le_add_right i j)).trans (Nat.ge_two_pow_of_testBit hb)
  · intro hi
    obtain ⟨k, hk, hb⟩ := Nat.exists_ge_and_testBit_of_ge_two_pow hi
    have hlt : k < 64 := (Nat.pow_lt_pow_iff_right one_lt_two).mp ((Nat.ge_two_pow_of_testBit hb).trans_lt hv)
    exact ⟨k - i, by omega, by rwa [show i + (k - i) = k by omega]⟩

lemma nextPowerOf2_eq {n : ℕ} (h0 : 0 < n) (h : n ≤ 2 ^ 63) : nextPowerOf2 n = 2 ^ Nat.clog 2 n := by
  have hone : Smeared (n - 1) 1 (n - 1) := by
    intro i
    simp
  have hv : (n + 2 ^ 64 - 1) % 2 ^ 64 = n - 1 := by omega
  have hsize : (n - 1).size = Nat.clog 2 n := by
    refine eq_of_forall_ge_iff fun k => ?_
    rw [Nat.size_le, Nat.clog_le_iff_le_pow one_lt_two]
    omega
  have hlast := hone.double.double.double.double.double.double.eq (by omega)
  have hle : Nat.clog 2 n ≤ 63 := (Nat.clog_le_iff_le_pow one_lt_two).mpr h
  have hpow : 2 ^ Nat.clog 2 n ≤ 2 ^ 63 := Nat.pow_le_pow_right two_pos hle
  have hpos : 0 < 2 ^ Nat.clog 2 n := Nat.two_pow_pos _
  rw [nextPowerOf2, hv, hlast, hsize]
  omega

lemma clzPower2_two_pow : ∀ k < 64, clzPower2 (2 ^ k) = k := by decide +kernel

lemma calculateMaxDepth_eq {n : ℕ} (h0 : 0 < n) (h : n ≤ 2 ^ 63) : calculateMaxDepth n = Nat.clog 2 n + 1 := by
  have hle : Nat.clog 2 n ≤ 63 := (Nat.clog_le_iff_le_pow one_lt_two).mpr h
  rw [calculateMaxDepth, if_neg h0.ne', nextPowerOf2_eq h0 h, clzPower2_two_pow _ (by omega)]

end

section

variable (c : Crypto)

def pairs : List Digest → List Digest
  | l :: r :: ds => hashCanonicalPair c l r :: pairs ds
  | _ => []

def peaks : ℕ → List Digest → List Digest
  | 0, _ => []
  | n + 1, ds => ds.drop (ds.length / 2 * 2) ++ peaks n (pairs c ds)

variable {c} {ds es : List Digest}

lemma append_of_pairs {f : List Digest → List Digest} (hf : ∀ l r ds, f (l :: r :: ds) = hashCanonicalPair c l r :: f ds)
    (h : ds.length % 2 = 0) (es : List Digest) : f (ds ++ es) = pairs c ds ++ f es := by
  fun_induction pairs c ds with
  | case1 l r ds ih => simpa [hf] using ih (by rw [length_cons, length_cons] at h; omega)
  | case2 ds hds =>
    rcases ds with _ | ⟨a, _ | ⟨b, ds⟩⟩
    · rfl
    · simp at h
    · exact absurd rfl (hds a b ds)

lemma pairs_append (h : ds.length % 2 = 0) (es : List Digest) : pairs c (ds ++ es) = pairs c ds ++ pairs c es :=
  append_of_pairs (fun _ _ _ => rfl) h es

lemma combine_append (h : ds.length % 2 = 0) (es : List Digest) : combine c (ds ++ es) = pairs c ds ++ combine c es :=
  append_of_pairs (fun _ _ _ => rfl) h es

lemma length_pairs (ds : List Digest) : (pairs c ds).length = ds.length / 2 := by
  fun_induction pairs c ds with
  | case1 l r ds ih => simp only [length_cons, ih]; omega
  | case2 ds hds =>
    rcases ds with _ | ⟨a, _ | ⟨b, ds⟩⟩
    · rfl
    · simp
    · exact absurd rfl (hds a b ds)

lemma length_iterate_pairs (n : ℕ) (ds : List Digest) : ((pairs c)^[n] ds).length = ds.length / 2 ^ n := by
  induction n generalizing ds with
  | zero => simp
  | succ n ih => rw [iterate_succ_apply, ih, length_pairs, Nat.div_div_eq_div_mul, pow_succ']

lemma peaks_succ (n : ℕ) (ds : List Digest) : peaks c (n + 1) ds = peaks c n ds ++ peaks c 1 ((pairs c)^[n] ds) := by
  induction n generalizing ds with
  | zero => rfl
  | succ n ih => rw [peaks, ih, ← append_assoc, iterate_succ_apply]; rfl

lemma peaks_append (n : ℕ) (h : ds.length % 2 = 0) (es : List Digest) :
    peaks c (n + 1) (ds ++ es) = es.drop (es.length / 2 * 2) ++ peaks c n (pairs c ds ++ pairs c es) := by
  rw [peaks, pairs_append h, length_append,
    show (ds.length + es.length) / 2 * 2 = ds.length + es.length / 2 * 2 by omega,
    drop_append, drop_eq_nil_of_le (by omega), nil_append, Nat.add_sub_cancel_left]

lemma collapse_run (n : ℕ) (ds : List Digest) (top : Digest) (isPartial : Bool) (rest updated : List Digest) :
    ∃ s, (collapseLevel c)^[n] ⟨ds.length, top, isPartial, peaks c n ds ++ rest, updated⟩ = s ∧
      (combine c)^[n] (ds ++ [top]) = (pairs c)^[n] ds ++ [s.top] ∧
      s.updated = updated ++ peaks c n (if isPartial then ds else ds ++ [top]) := by
  induction n generalizing ds top isPartial updated with
  | zero => exact ⟨_, rfl, rfl, by simp [peaks]⟩
  | succ n ih =>
    rcases Nat.mod_two_eq_zero_or_one ds.length with hev | hodd
    · obtain ⟨s, hrun, htop, hup⟩ := ih (pairs c ds) (hashCanonicalPair c top top) true
        (if isPartial then updated else updated ++ [top])
      have hpeaks : peaks c (n + 1) ds = peaks c n (pairs c ds) := by simpa [pairs] using peaks_append (c := c) n hev []
      refine ⟨s, ?_, ?_, ?_⟩
      · rw [iterate_succ_apply, ← hrun, collapseLevel, if_pos hev, hpeaks, length_pairs]
        rfl
      · rw [iterate_succ_apply, combine_append hev, iterate_succ_apply]
        exact htop
      · cases isPartial with
        | true => rw [hup]; simp [hpeaks]
        | false => rw [hup]; simp [peaks_append n hev, pairs]
    · obtain ⟨es, left, rfl⟩ : ∃ es left, ds = es ++ [left] :=
        ⟨_, _, (dropLast_append_getLast (ne_nil_of_length_pos (by omega))).symm⟩
      have hev : es.length % 2 = 0 := by simp at hodd; omega
      have hpairs : pairs c (es ++ [left]) = pairs c es := by simp [pairs_append hev, pairs]
      obtain ⟨s, hrun, htop, hup⟩ := ih (pairs c es) (hashCanonicalPair c left top) isPartial
        (if isPartial then updated ++ [left] else updated)
      have hpeaks : peaks c (n + 1) (es ++ [left]) = left :: peaks c n (pairs c es) := by
        rw [peaks_append n hev]
        simp [pairs]
      refine ⟨s, ?_, ?_, ?_⟩
      · rw [iterate_succ_apply, ← hrun, collapseLevel, if_neg (by dsimp only; omega), hpeaks, ← hpairs, length_pairs]
        rfl
      · rw [iterate_succ_apply, append_assoc, combine_append hev, iterate_succ_apply, hpairs]
        exact htop
      · cases isPartial with
        | true => rw [hup]; simp [hpeaks]
        | false => rw [hup]; simp [peaks_append n hev, pairs]

def stored (c : Crypto) (ds : List Digest) : List Digest :=
  if ds = [] then [] else peaks c (Nat.clog 2 ds.length) ds ++ [root c ds]

lemma iterate_combine_of_length {n : ℕ} (h : ds.length = 2 ^ n) : (combine c)^[n] ds = (pairs c)^[n] ds := by
  induction n generalizing ds with
  | zero => rfl
  | succ n ih =>
    have hev : ds.length % 2 = 0 := by rw [h, pow_succ]; omega
    have hcombine : combine c ds = pairs c ds := by simpa [combine] using combine_append (c := c) hev []
    rw [iterate_succ_apply, iterate_succ_apply, hcombine]
    exact ih (by rw [length_pairs, h, pow_succ]; omega)

lemma stored_eq (ds : List Digest) : ∃ rest, stored c ds = peaks c (Nat.clog 2 (ds.length + 1)) ds ++ rest := by
  rw [stored]
  split_ifs with hnil
  · subst hnil
    exact ⟨[], by simp [peaks]⟩
  · have hpos : 0 < ds.length := length_pos_iff.mpr hnil
    have hle := Nat.le_pow_clog one_lt_two ds.length
    have hmono := Nat.clog_mono_right 2 (Nat.le_add_right ds.length 1)
    by_cases hfull : ds.length = 2 ^ Nat.clog 2 ds.length
    · have hclog : Nat.clog 2 (ds.length + 1) = Nat.clog 2 ds.length + 1 := by
        refine le_antisymm ((Nat.clog_le_iff_le_pow one_lt_two).mpr ?_) (Nat.lt_clog_iff_pow_lt one_lt_two |>.mpr ?_)
        · rw [pow_succ]; omega
        · omega
      have hone : ((pairs c)^[Nat.clog 2 ds.length] ds).length = 1 := by
        rw [length_iterate_pairs, ← hfull, Nat.div_self hpos]
      obtain ⟨d, hd⟩ := length_eq_one_iff.mp hone
      refine ⟨[], ?_⟩
      rw [hclog, peaks_succ, root, iterate_combine_of_length hfull, hd]
      simp [peaks]
    · have hclog : Nat.clog 2 (ds.length + 1) = Nat.clog 2 ds.length :=
        le_antisymm ((Nat.clog_le_iff_le_pow one_lt_two).mpr (by omega)) hmono
      exact ⟨[root c ds], by rw [hclog]⟩

lemma append_stored (d : Digest) (h : ds.length < 2 ^ 63) :
    append c ⟨ds.length, stored c ds⟩ d = ⟨(ds ++ [d]).length, stored c (ds ++ [d])⟩ := by
  obtain ⟨rest, hrest⟩ := stored_eq (c := c) ds
  obtain ⟨s, hrun, htop, hup⟩ := collapse_run (c := c) (Nat.clog 2 (ds.length + 1)) ds d false rest []
  have hnil : (pairs c)^[Nat.clog 2 (ds.length + 1)] ds = [] := by
    have := Nat.le_pow_clog one_lt_two (ds.length + 1)
    exact length_eq_zero_iff.mp (by rw [length_iterate_pairs, Nat.div_eq_of_lt (by omega)])
  have hroot : root c (ds ++ [d]) = s.top := by simp [root, htop, hnil]
  rw [append, calculateMaxDepth_eq (Nat.succ_pos _) h, Nat.add_sub_cancel, hrest, hrun, hup, stored,
    if_neg (by simp), hroot]
  simp

lemma appends_stored (h : ds.length ≤ 2 ^ 63) : ds.foldl (append c) {} = ⟨ds.length, stored c ds⟩ := by
  induction ds using reverseRecOn with
  | nil => rfl
  | append_singleton ds d ih =>
    rw [length_append, length_singleton] at h
    rw [foldl_append, ih (by omega)]
    exact append_stored d (by omega)

lemma getRoot_appends (h : ds.length ≤ 2 ^ 63) : (ds.foldl (append c) {}).getRoot = root c ds := by
  rw [appends_stored h, getRoot, stored]
  rcases eq_nil_or_concat ds with rfl | ⟨es, d, rfl⟩
  · rfl
  · simp

theorem merkle_eq_getRoot_iff (c : Crypto) (ds : List Digest) :
    merkle c ds = .ok (ds.foldl (append c) {}).getRoot ↔ ds.length ≤ 2 ^ 31 := by
  constructor
  · intro heq
    by_contra hlong
    rw [merkle_overflows c (by omega)] at heq
    cases heq
  · intro hle
    rw [getRoot_appends (by omega)]
    exact merkle_eq c hle

theorem merkle_of_long_overflows : merkle zero (replicate (2 ^ 31 + 1) 0) ≠
    .ok ((replicate (2 ^ 31 + 1) 0).foldl (append zero) {}).getRoot := by
  rw [merkle_overflows zero (by rw [length_replicate]; omega)]
  rintro ⟨⟩

end

end IncrementalMerkle

end XosChain.Header
