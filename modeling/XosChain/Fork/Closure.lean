import XosChain.Fork.Chains
import XosChain.Fork.Signals

namespace XosChain.Header

lemma endianReverseU32_lt (n : ℕ) : endianReverseU32 n < 2 ^ 32 := by
  have hmask : ∀ a m : ℕ, m < 2 ^ 32 → a &&& m < 2 ^ 32 := fun a m h => Nat.and_lt_two_pow _ h
  rw [endianReverseU32]
  exact Nat.or_lt_two_pow (Nat.or_lt_two_pow (Nat.or_lt_two_pow (hmask _ _ (by decide)) (hmask _ _ (by decide)))
    (hmask _ _ (by decide))) (hmask _ _ (by decide))

lemma endianReverseU32_twice {n : ℕ} (h : n < 2 ^ 32) : endianReverseU32 (endianReverseU32 n) = n := by
  apply Nat.eq_of_testBit_eq
  intro i
  by_cases hi : i < 32
  · simp only [endianReverseU32, Nat.testBit_or, Nat.testBit_and, Nat.testBit_shiftRight, Nat.testBit_shiftLeft]
    interval_cases i <;> simp [Nat.testBit]
  · have hle : 2 ^ 32 ≤ 2 ^ i := Nat.pow_le_pow_right (by decide) (not_lt.mp hi)
    rw [Nat.testBit_lt_two_pow ((endianReverseU32_lt _).trans_le hle), Nat.testBit_lt_two_pow (h.trans_le hle)]

lemma numFromId_id (c : Crypto) {h : BlockHeader} (hn : h.blockNum < 2 ^ 32) : numFromId (h.id c) = h.blockNum := by
  have hmask : h.id c &&& 0xffffffff = endianReverseU32 h.blockNum := by
    rw [BlockHeader.id, show (0xffffffff : ℕ) = 2 ^ 32 - 1 from rfl, Nat.and_two_pow_sub_one_eq_mod, Nat.shiftLeft_eq,
      Nat.mul_add_mod', Nat.mod_eq_of_lt (endianReverseU32_lt _)]
  rw [numFromId, hmask, endianReverseU32_twice hn]

namespace BlockHeaderState

variable {c : Crypto} {p s t : BlockHeaderState}

lemma complete_id {h : SignedBlockHeader} (hc : t.complete c h = .ok s) : s.id = s.header.toBlockHeader.id c := by
  obtain ⟨r, _, hc⟩ := bind_ok hc
  cases hc
  rfl

lemma Child.id_eq (h : Child c p s) : s.id = s.header.toBlockHeader.id c := by
  cases h with
  | next header trust h =>
    iterate 4 obtain ⟨_, h⟩ := eosAssert_ok h
    obtain ⟨template, _, h⟩ := bind_ok h
    obtain ⟨_, h⟩ := eosAssert_ok h
    obtain ⟨_, h⟩ := eosAssert_ok h
    obtain ⟨_, _, h⟩ := bind_ok h
    obtain ⟨r, hr, h⟩ := bind_ok h
    obtain ⟨_, h⟩ := eosAssert_ok h
    cases h
    exact complete_id hr
  | produce header h =>
    obtain ⟨template, _, h⟩ := bind_ok h
    exact complete_id h

lemma Child.numFromId_eq (h : Child c p s) (hp : numFromId p.id = p.blockNum) (hn : s.blockNum < 2 ^ 32) :
    numFromId s.id = s.blockNum := by
  obtain ⟨_, _, he⟩ := h.extends
  have hnum : s.header.toBlockHeader.blockNum = s.blockNum := by
    rw [BlockHeader.blockNum, he.previous, hp, he.blockNum]
  rw [h.id_eq, numFromId_id c (hnum ▸ hn), hnum]

end BlockHeaderState

end XosChain.Header

namespace XosChain.Fork

open Lib Header List BlockState

namespace Index

def Relabelled : Index → Index → Prop := Mapped fun s t => t.id = s.id ∧ t.prev = s.prev ∧ t.blockNum = s.blockNum ∧
  t.bftIrreversibleBlocknum = s.bftIrreversibleBlocknum

structure Grounded (idx : Index) : Prop where
  rooted : ∃ base num, idx.Rooted base num ∧ numFromId base + 1 = num
  named : ∀ s ∈ idx.rows, numFromId s.id = s.blockNum
  bft : ∀ s ∈ idx.rows, ∀ p ∈ idx.rows, p.id = s.prev → p.bftIrreversibleBlocknum ≤ s.bftIrreversibleBlocknum

section

variable {idx idx' idx'' : Index} {s p n : BlockState}

lemma Relabelled.refl (idx : Index) : Relabelled idx idx := Mapped.refl (fun _ => ⟨rfl, rfl, rfl, rfl⟩) idx

lemma Relabelled.trans (h : Relabelled idx idx') (h' : Relabelled idx' idx'') : Relabelled idx idx'' := by
  refine Mapped.trans ?_ h h'
  rintro _ _ _ ⟨hi, hp, hn, hb⟩ ⟨hi', hp', hn', hb'⟩
  exact ⟨hi'.trans hi, hp'.trans hp, hn'.trans hn, hb'.trans hb⟩

lemma Relabelled.sameShape (h : Relabelled idx idx') : SameShape idx idx' := by
  obtain ⟨g, he, hg⟩ := h
  exact ⟨g, he, fun s hs => ⟨(hg s hs).1, (hg s hs).2.1, (hg s hs).2.2.1⟩⟩

lemma Relabelled.modify {id : BlockId} {f : BlockState → BlockState} (hf : ∀ s, (f s).id = s.id)
    (hp : ∀ s, (f s).prev = s.prev) (hn : ∀ s, (f s).blockNum = s.blockNum)
    (hb : ∀ s, (f s).bftIrreversibleBlocknum = s.bftIrreversibleBlocknum) : Relabelled idx (idx.modify id f hf) :=
  Mapped.modify (fun _ => ⟨rfl, rfl, rfl, rfl⟩) hf fun s => ⟨hf s, hp s, hn s, hb s⟩

section

variable (h : Grounded idx)

include h

lemma Grounded.tree : ∃ base num, Tree base num idx := by
  obtain ⟨base, num, hr, hbase⟩ := h.rooted
  refine ⟨base, num, hr, ?_⟩
  intro hb
  obtain ⟨s, hs, rfl⟩ := mem_ids.mp hb
  have hle := hr.num_le hs
  have hnum := h.named s hs
  omega

lemma Grounded.relabelled (hl : Relabelled idx idx') : Grounded idx' := by
  obtain ⟨base, num, hr, hbase⟩ := h.rooted
  refine ⟨⟨base, num, hr.sameShape hl.sameShape, hbase⟩, ?_, ?_⟩
  all_goals
    obtain ⟨g, he, hg⟩ := hl
    rw [he]
  · intro t ht
    obtain ⟨s, hs, rfl⟩ := mem_map.mp ht
    rw [(hg s hs).1, (hg s hs).2.2.1]
    exact h.named s hs
  · intro t ht q hq
    obtain ⟨s, hs, rfl⟩ := mem_map.mp ht
    obtain ⟨p, hp, rfl⟩ := mem_map.mp hq
    rw [(hg s hs).2.1, (hg s hs).2.2.2, (hg p hp).1, (hg p hp).2.2.2]
    exact h.bft s hs p hp

lemma Grounded.parentsKept (hk : ParentsKept idx idx') : Grounded idx' := by
  obtain ⟨base, num, hr, hbase⟩ := h.rooted
  exact ⟨⟨base, num, hr.parentsKept hk, hbase⟩, fun s hs => h.named s (hk.sub s hs),
    fun s hs p hp => h.bft s (hk.sub s hs) p (hk.sub p hp)⟩

lemma Grounded.release (hs : s ∈ idx.rows) (hmin : ∀ t ∈ idx.rows, s.blockNum ≤ t.blockNum)
    (hk : ParentsKept (idx.erase s.id) idx') (hlevel : ∀ t ∈ idx'.rows, t.blockNum ≠ s.blockNum) : Grounded idx' := by
  obtain ⟨base, num, hr, _⟩ := h.rooted
  obtain ⟨_, rfl⟩ := hr.lowest hs hmin
  have hsub : ∀ t ∈ idx'.rows, t ∈ idx.rows := fun t ht => (mem_erase.mp (hk.sub t ht)).1
  exact ⟨⟨s.id, s.blockNum + 1, hr.release hs rfl hk hlevel, by rw [h.named s hs]⟩,
    fun t ht => h.named t (hsub t ht), fun t ht p hp => h.bft t (hsub t ht) p (hsub p hp)⟩

lemma Grounded.prev_ne (hfind : idx.find? n.id = none) (hp : p ∈ idx.rows) (hn : n.blockNum = p.blockNum + 1)
    (hname : numFromId n.id = n.blockNum) (hs : s ∈ idx.rows) : s.prev ≠ n.id := by
  obtain ⟨base, num, hr, hbase⟩ := h.rooted
  intro he
  rcases hr s hs with ⟨hb, _⟩ | ⟨q, hq, hid, _⟩
  · have hle := hr.num_le hp
    rw [← he, hb] at hname
    omega
  · exact find?_eq_none.mp hfind q hq (hid.trans he)

lemma Grounded.insert (hi : idx.insert n = some idx') (hp : p ∈ idx.rows) (he : p.id = n.prev)
    (hn : n.blockNum = p.blockNum + 1) (hbft : n.bftIrreversibleBlocknum = p.bftIrreversibleBlocknum)
    (hname : numFromId n.id = n.blockNum) : Grounded idx' := by
  obtain ⟨base, num, hr, hbase⟩ := h.rooted
  obtain ⟨hfind, hrows⟩ := insert_eq_some hi
  have hmem : ∀ t ∈ idx'.rows, t ∈ idx.rows ∨ t = n := by
    intro t ht
    rw [hrows] at ht
    exact (mem_append.mp ht).imp_right mem_singleton.mp
  refine ⟨⟨base, num, hr.insert hi hp he hn, hbase⟩, ?_, ?_⟩
  · intro t ht
    rcases hmem t ht with ht | rfl
    · exact h.named t ht
    · exact hname
  · intro t ht q hq hqt
    rcases hmem t ht with ht | rfl <;> rcases hmem q hq with hq | rfl
    · exact h.bft t ht q hq hqt
    · exact absurd hqt.symm (h.prev_ne hfind hp hn hname ht)
    · rw [eq_of_id hq hp (hqt.trans he.symm), hbft]
    · exact le_rfl

lemma Grounded.setBftIrreversible {b : BlockState}
    (hb : ∀ s ∈ idx.rows, s.id = b.id → s.bftIrreversibleBlocknum < b.blockNum) :
    Grounded (idx.setBftIrreversible b) := by
  obtain ⟨base, num, hr, hbase⟩ := h.rooted
  refine ⟨⟨base, num, hr.sameShape (.setBftIrreversible idx b), hbase⟩, ?_, ?_⟩
  all_goals
    obtain ⟨g, he, hg⟩ := idx.setBftIrreversible_rows b
    rw [he]
  · intro t ht
    obtain ⟨s, hs, rfl⟩ := mem_map.mp ht
    rcases hg s hs with ⟨_, hgs⟩ | ⟨_, hgs⟩
    · rw [hgs]
      exact h.named s hs
    · rw [hgs]
      exact h.named s hs
  · intro t ht q hq hqt
    obtain ⟨s, hs, rfl⟩ := mem_map.mp ht
    obtain ⟨p, hp, rfl⟩ := mem_map.mp hq
    rcases hg s hs with ⟨hls, hgs⟩ | ⟨hls, hgs⟩ <;> rcases hg p hp with ⟨hlp, hgp⟩ | ⟨hlp, hgp⟩ <;>
      rw [hgs, hgp] at hqt ⊢
    · exact le_rfl
    · -- only the confirmed block is raised without its parent
      have hid : s.id = b.id := by
        generalize hi : s.id = i at hls
        cases hls with
        | self => rfl
        | @child u hu _ hup =>
          obtain rfl := eq_of_id hs hu hi
          rw [← show p.id = s.prev from hqt] at hup
          exact absurd hup hlp
      exact (h.bft s hs p hp hqt).trans (hb s hs hid).le
    · by_contra hlt
      have hp' : Lifted idx b s.prev := (show p.id = s.prev from hqt) ▸ hlp
      exact hls (.child hs (not_le.mp hlt) hp')
    · exact h.bft s hs p hp hqt

end

lemma rows_eq_nil_of_head (h : idx.byBlockNum.head? = none) : idx.rows = [] := by
  have hp := idx.num_perm
  rw [head?_eq_none_iff.mp h] at hp
  exact hp.symm.eq_nil

end

end Index

namespace ForkDatabase

open Fork.Index

def GroundedUnless (e : Thrown) (db : ForkDatabase) : Prop := e.code ≠ .undefinedBehavior → db.index.Grounded

section

variable {c : Crypto} {db : ForkDatabase} {h n p : BlockState} {handler : Handler} {num : ℕ}

lemma relabelled_kept (idx : Index) : KeptByFlags fun db => Relabelled idx db.index where
  mark _ _ flag h := h.trans (.modify (mark_id flag) (fun _ => rfl) (fun _ => rfl) (fun _ => rfl))
  validate _ _ h := h.trans (.modify validate_id (fun _ => rfl) (fun _ => rfl) (fun _ => rfl))

lemma releaseBlock_spec (db : ForkDatabase) (handler : Handler) (h : BlockState) :
    Triple (· = db) (releaseBlock handler h)
      (fun _ db' => h.id ∉ db.index.ids ∧ db'.index = db.index ∨
        h.id ∈ db.index.ids ∧ ∃ idx, Relabelled db.index idx ∧ db'.index = idx.erase h.id)
      (fun _ db' => Relabelled db.index db'.index) := by
  refine .getBind_eq ?_
  cases hs : db.getBlock h.id with
  | none =>
    refine .pure_eq ?_
    refine .inl ⟨fun hmem => ?_, rfl⟩
    obtain ⟨t, ht, hid⟩ := mem_ids.mp hmem
    exact find?_eq_none.mp hs t ht hid
  | some s =>
    refine .seq ((irreversible_keeps (relabelled_kept db.index) s).of_eq (.refl _)) fun _ db' hl => ?_
    exact .getBind_eq (.modify_eq (.inr ⟨mem_ids.mpr ⟨s, find?_eq_some.mp hs⟩, _, hl, rfl⟩))

lemma pruneLevel_grounded (hg : db.index.Grounded) (hname : numFromId h.id = h.blockNum)
    (hmin : ∀ t ∈ db.index.rows, h.blockNum ≤ t.blockNum) :
    Triple (· = db) (pruneLevel handler h)
      (fun _ db' => db'.index.Grounded ∧ ∀ t ∈ db'.index.rows, t.id ∈ db.index.ids ∧ t.blockNum ≠ h.blockNum)
      GroundedUnless := by
  refine .seq ((releaseBlock_spec db handler h).weaken fun _ _ hl _ => hg.relabelled hl) ?_
  intro _ db1 hrel
  refine .getBind_eq ?_
  refine (pruneSiblings_spec h.blockNum _ db1 le_rfl).conseq (fun _ h => h) ?_ (fun _ _ he hne => absurd he hne)
  rintro _ db2 ⟨hkept, hlevel, _⟩
  rcases hrel with ⟨_, hidx⟩ | ⟨hmem, idx, hl, hidx⟩
  · rw [hidx] at hkept
    exact ⟨hg.parentsKept hkept, fun t ht => ⟨mem_ids_of_mem (hkept.sub t ht), hlevel t ht⟩⟩
  · rw [hidx] at hkept
    have hgi := hg.relabelled hl
    have hids := hl.sameShape.ids_eq
    obtain ⟨s, hs, hid⟩ := mem_ids.mp (hids.symm ▸ hmem)
    have hnum : s.blockNum = h.blockNum := by rw [← hgi.named s hs, hid, hname]
    have hlow : ∀ t ∈ idx.rows, s.blockNum ≤ t.blockNum := by
      intro t ht
      obtain ⟨u, hu, _, _, hun⟩ := hl.sameShape.symm.mem ht
      rw [hnum, ← hun]
      exact hmin u hu
    rw [← hid] at hkept
    refine ⟨hgi.release hs hlow hkept (hnum ▸ hlevel), ?_⟩
    intro t ht
    exact ⟨hids ▸ mem_ids_of_mem (mem_erase.mp (hkept.sub t ht)).1, hlevel t ht⟩

lemma pruneLower_grounded (fuel : ℕ) (hf : db.index.rows.length ≤ fuel) (hg : db.index.Grounded) :
    Triple (· = db) (pruneLower handler num fuel)
      (fun _ db' => db'.index.Grounded ∧ ∀ t ∈ db'.index.rows, num ≤ t.blockNum) GroundedUnless := by
  induction fuel generalizing db with
  | zero =>
    refine .pure_eq ?_
    have hnil := length_eq_zero_iff.mp (Nat.le_zero.mp hf)
    exact ⟨hg, fun t ht => by rw [hnil] at ht; cases ht⟩
  | succ fuel ih =>
    refine .getBind_eq ?_
    cases hb : db.index.byBlockNum.head? with
    | none => exact .pure_eq ⟨hg, fun t ht => by rw [rows_eq_nil_of_head hb] at ht; cases ht⟩
    | some s =>
      obtain ⟨hs, hmin⟩ := byBlockNum_head hb
      have hmin : ∀ t ∈ db.index.rows, s.blockNum ≤ t.blockNum := fun t ht => numKey_le (hmin t ht)
      dsimp only
      split_ifs with hlt
      · refine .seq (pruneLevel_grounded hg (hg.named s hs) hmin) ?_
        rintro _ db' ⟨hg', hleft⟩
        refine ih ?_ hg'
        have hlen : db'.index.rows.length < db.index.rows.length := by
          refine length_lt_of_ids hs ?_
          intro t ht
          refine ⟨(hleft t ht).1, fun hid => (hleft t ht).2 ?_⟩
          rw [← hg'.named t ht, hid, hg.named s hs]
        omega
      · exact .pure_eq ⟨hg, fun t ht => (not_lt.mp hlt).trans (hmin t ht)⟩

section

variable (hg : db.index.Grounded)

include hg

lemma prune_grounded (hname : numFromId h.id = h.blockNum) :
    Triple (· = db) (prune handler h) (fun _ db' => db'.index.Grounded) GroundedUnless := by
  refine .getBind_eq (.seq (pruneLower_grounded _ le_rfl hg) ?_)
  rintro _ db' ⟨hg', hmin⟩
  exact (pruneLevel_grounded hg' hname hmin).conseq (fun _ h => h) (fun _ _ h => h.1) (fun _ _ h => h)

lemma add_grounded (hp : p ∈ db.index.rows) (hc : p.toBlockHeaderState.Child c n.toBlockHeaderState)
    (hn : n.blockNum < 2 ^ 32) :
    Triple (· = db) (add handler n) (fun _ db' => db'.index.Grounded) GroundedUnless := by
  obtain ⟨_, _, he⟩ := hc.extends
  have hname : numFromId n.id = n.blockNum := hc.numFromId_eq (hg.named p hp) hn
  refine add_rule (fun _ _ => hg) (fun _ _ he hne => absurd he hne) fun idx best hi _ => ?_
  have hg' : idx.Grounded := hg.insert hi hp he.previous.symm he.blockNum he.bft hname
  exact ⟨fun _ => hg', fun oldest hold _ => prune_grounded hg' (hg'.named oldest (byBlockNum_head hold).1)⟩

lemma remove_grounded (id : BlockId) :
    Triple (· = db) (remove id) (fun _ db' => db'.index.Grounded) GroundedUnless := by
  refine (remove_spec db id).conseq (fun _ h => h) ?_ (fun _ _ he hne => absurd he hne)
  rintro _ _ ⟨hidx, _⟩
  exact hidx ▸ hg.parentsKept (db.index.removeBranch_parentsKept id)

lemma setValidity_grounded (valid : Bool) :
    Triple (· = db) (setValidity h valid) (fun _ db' => db'.index.Grounded) GroundedUnless :=
  setValidity_rule (remove_grounded hg h.id)
    (hg.relabelled (.modify validate_id (fun _ => rfl) (fun _ => rfl) (fun _ => rfl))) valid

lemma addConfirmation_grounded (conf : HeaderConfirmation) :
    Triple (· = db) (addConfirmation c conf) (fun _ db' => db'.index.Grounded) GroundedUnless := by
  refine addConfirmation_rule (fun _ _ => hg) fun b hb => ?_
  have hg' : (db.index.modify b.id (.confirm conf) (confirm_id conf)).Grounded :=
    hg.relabelled (.modify _ (fun _ => rfl) (fun _ => rfl) (fun _ => rfl))
  refine ⟨hg', fun hlt _ => hg'.setBftIrreversible ?_⟩
  intro s hs hid
  obtain ⟨t, ht, rfl⟩ := (mem_modify _).mp hs
  have htb : t.id = b.id := by
    split_ifs at hid <;> exact hid
  rw [if_pos htb, eq_of_id ht (find?_eq_some.mp hb).1 htb]
  exact hlt

lemma addBlock_grounded {b : SignedBlockHeader} {trust : Bool}
    (hn : ∀ n, Inserts c db (.addBlock handler b trust) n → n.blockNum < 2 ^ 32) :
    Triple (· = db) (addBlock c handler b trust) (fun _ db' => db'.index.Grounded) GroundedUnless :=
  addBlock_rule (fun _ _ => hg) fun prior result hp hr =>
    add_grounded hg (find?_eq_some.mp hp).1 (.next b trust hr) (hn _ ⟨prior, hp, result, hr, rfl⟩)

end

end

structure Sized (c : Crypto) (db : ForkDatabase) (op : Op) : Prop where
  inserted : ∀ n, Inserts c db op n → n.blockNum < 2 ^ 32
  pruned : ∀ handler h, op = .prune handler h → numFromId h.id = h.blockNum

structure WellFormed (c : Crypto) (root : BlockState) : Prop where
  id_eq : root.id = root.header.toBlockHeader.id c
  num_eq : root.blockNum = root.header.toBlockHeader.blockNum
  num_lt : root.blockNum < 2 ^ 32

section

variable {c : Crypto} {db : ForkDatabase} {op : Op} {root : BlockState}

lemma ofRoot_grounded (h : WellFormed c root) : (ofRoot root).index.Grounded := by
  have hname : numFromId root.id = root.blockNum := by
    rw [h.id_eq, h.num_eq]
    exact numFromId_id c (h.num_eq ▸ h.num_lt)
  refine ⟨⟨root.prev, root.blockNum, ?_, h.num_eq.symm⟩, ?_, ?_⟩
  · intro s hs
    rw [mem_singleton.mp hs]
    exact .inl ⟨rfl, rfl⟩
  · intro s hs
    rw [mem_singleton.mp hs]
    exact hname
  · intro s hs p hp _
    rw [mem_singleton.mp hs, mem_singleton.mp hp]

lemma exec_grounded (hg : db.index.Grounded) (ha : db.Admissible c op) (hk : Sized c db op) :
    Triple (· = db) (exec c op) (fun _ db' => db'.index.Grounded) GroundedUnless := by
  cases op with
  | add handler n =>
    obtain ⟨p, hp, hc⟩ := ha
    exact add_grounded hg hp hc (hk.inserted n rfl)
  | addBlock handler b trust => exact addBlock_grounded hg hk.inserted
  | addConfirmation conf => exact addConfirmation_grounded hg conf
  | remove id => exact remove_grounded hg id
  | setValidity h valid => exact setValidity_grounded hg valid
  | prune handler h => exact prune_grounded hg (hk.pruned handler h rfl)
  | markInCurrentChain h flag =>
    exact (markInCurrentChain_keeps (relabelled_kept db.index) h flag).conseq (fun _ h => h ▸ .refl _)
      (fun _ _ h => hg.relabelled h) (fun _ _ h _ => hg.relabelled h)

lemma Run.grounded (h : Run c (Sized c) root db) (hroot : WellFormed c root) : db.index.Grounded := by
  induction h with
  | start => exact ofRoot_grounded hroot
  | ok _ ha hk hx ih => exact (exec_grounded ih ha hk).ok rfl hx
  | error _ ha hk hne hx ih => exact (exec_grounded ih ha hk).error rfl hx hne

end

end ForkDatabase

namespace Index

structure Meeting (idx : Index) (a b : BlockState) (first second : List BlockState) : Prop where
  paths : ∃ stop, idx.Path a.id first stop ∧ idx.Path b.id second stop
  last : ∃ x y, first.getLast? = some x ∧ second.getLast? = some y ∧ x.blockNum = y.blockNum ∧ x.prev = y.prev
  earliest : ∀ x ∈ first, ∀ y ∈ second, x.blockNum = y.blockNum → x.prev = y.prev →
    first.getLast? = some x ∧ second.getLast? = some y
  below : idx.Descends a.id b.id → first = [a] ∧ second.getLast? = some a
  above : idx.Descends b.id a.id → second = [b] ∧ first.getLast? = some b

section

variable {idx : Index} {base start stop j : BlockId} {num : ℕ} {a b x : BlockState} {path first second : List BlockState}

lemma Descends.num_lt (ht : Tree base num idx) (ha : a ∈ idx.rows) (hd : idx.Descends a.id j) (hx : x ∈ idx.rows)
    (hp : x.prev = j) : a.blockNum < x.blockNum := by
  induction hd generalizing x with
  | self =>
    have := ht.num_of_prev hx ha hp.symm
    omega
  | child hs _ ih =>
    have := ht.num_of_prev hx hs hp.symm
    have := ih hs rfl
    omega

lemma Path.mem_or_descends (h : idx.Path start path stop) (ha : a ∈ idx.rows) (hd : idx.Descends a.id start) :
    a ∈ path ∨ idx.Descends a.id stop := by
  induction path generalizing start with
  | nil => exact .inr ((show start = stop from h) ▸ hd)
  | cons b path ih =>
    obtain ⟨hb, rfl, hp⟩ := h
    generalize hid : b.id = i at hd
    cases hd with
    | self => exact .inl (eq_of_id hb ha hid ▸ mem_cons_self)
    | child hs hd =>
      obtain rfl := eq_of_id hb hs hid
      exact (ih hp hd).imp_left (mem_cons_of_mem _)

lemma ends_with_ancestor (ht : Tree base num idx) (ha : a ∈ idx.rows) (hp : idx.Path a.id first stop)
    (hp' : idx.Path b.id second stop) (hlast : first.getLast? = some x)
    (hpair : a ∈ first → a ∈ second → first.getLast? = some a ∧ second.getLast? = some a)
    (hd : idx.Descends a.id b.id) : first = [a] ∧ second.getLast? = some a := by
  cases first with
  | nil => cases hlast
  | cons y first =>
    obtain rfl := eq_of_id hp.1 ha hp.2.1
    have hfall := pairwise_cons.mp (hp.descending ht)
    have hx : x ∈ y :: first := mem_of_getLast? hlast
    have hstop : x.prev = stop := by
      have := hp.getLast (cons_ne_nil _ _)
      rw [hlast] at this
      exact Option.some.inj this
    have hxle : x.blockNum ≤ y.blockNum := by
      rcases mem_cons.mp hx with rfl | hx
      · exact le_rfl
      · exact (hfall.1 x hx).le
    have hmem : y ∈ second := by
      rcases hp'.mem_or_descends ha hd with hmem | hdown
      · exact hmem
      · exact absurd (hdown.num_lt ht ha (hp.mem hx) hstop) (not_lt.mpr hxle)
    obtain ⟨hfirst, hsecond⟩ := hpair mem_cons_self hmem
    refine ⟨?_, hsecond⟩
    cases first with
    | nil => rfl
    | cons z first =>
      rw [getLast?_cons_cons] at hfirst
      exact absurd (hfall.1 y (mem_of_getLast? hfirst)) (lt_irrefl _)

lemma fetchBranchFrom_meeting (ht : Tree base num idx) (ha : a ∈ idx.rows) (hb : b ∈ idx.rows) :
    ∃ first second, idx.fetchBranchFrom a.id b.id = some (first, second) ∧ Meeting idx a b first second := by
  obtain ⟨above, above', path, path', stop, he, hp, hp', hap, habove⟩ := fetchBranchFrom_apart ht ha hb
  have hfall := hp.descending ht
  have hfall' := hp'.descending ht
  obtain ⟨x, y, hx, hy, hn, hprev⟩ := hap.getLast
  have hlast : (above ++ path).getLast? = some x := by rw [getLast?_append, hx]; rfl
  have hlast' : (above' ++ path').getLast? = some y := by rw [getLast?_append, hy]; rfl
  have hpair : ∀ u ∈ above ++ path, ∀ v ∈ above' ++ path', u.blockNum = v.blockNum → u.prev = v.prev →
      (above ++ path).getLast? = some u ∧ (above' ++ path').getLast? = some v := by
    intro u hu v hv hnum hpr
    obtain ⟨_, hd, hcross⟩ := pairwise_append.mp hfall
    obtain ⟨_, hd', hcross'⟩ := pairwise_append.mp hfall'
    rcases mem_append.mp hu with hu | hu <;> rcases mem_append.mp hv with hv | hv
    · rcases habove with rfl | rfl
      · cases hu
      · cases hv
    · exact absurd hnum (hap.lt_of_forall hd' (hcross u hu) hv).ne'
    · exact absurd hnum (hap.symm.lt_of_forall hd (hcross' v hv) hu).ne
    · obtain ⟨hlu, hlv⟩ := hap.eq_last hd hd' hu hv hnum hpr
      rw [getLast?_append, getLast?_append, hlu, hlv]
      exact ⟨rfl, rfl⟩
  refine ⟨_, _, he, ⟨stop, hp, hp'⟩, ⟨x, y, hlast, hlast', hn, hprev⟩, hpair, ?_, ?_⟩
  · exact ends_with_ancestor ht ha hp hp' hlast (fun h h' => hpair a h a h' rfl rfl)
  · exact ends_with_ancestor ht hb hp' hp hlast' (fun h h' => (hpair b h' b h rfl rfl).symm)

end

end Index

namespace ForkDatabase

theorem run_closed_with_branches {c : Crypto} {root : BlockState} {db : ForkDatabase} (h : Run c (Sized c) root db)
    (hroot : WellFormed c root) :
    (∀ s ∈ db.index.rows, (∃ p ∈ db.index.rows, p.id = s.prev ∧ s.blockNum = p.blockNum + 1) ∨
      ∀ t ∈ db.index.rows, s.blockNum ≤ t.blockNum) ∧
    ∀ a ∈ db.index.rows, ∀ b ∈ db.index.rows,
      ∃ first second, db.index.fetchBranchFrom a.id b.id = some (first, second) ∧ db.index.Meeting a b first second := by
  obtain ⟨base, num, ht⟩ := (h.grounded hroot).tree
  refine ⟨?_, fun a ha b hb => Index.fetchBranchFrom_meeting ht ha hb⟩
  intro s hs
  rcases ht.rooted s hs with ⟨_, hn⟩ | hparent
  · exact .inr fun t h => hn ▸ ht.rooted.num_le h
  · exact .inl hparent

section

lemma sized_of_rows {c : Crypto} {db : ForkDatabase} {handler : Handler} {b : SignedBlockHeader} {trust : Bool}
    (h : ∀ s ∈ db.index.rows, s.blockNum + 1 < 2 ^ 32) : Sized c db (.addBlock handler b trust) where
  inserted n := by
    rintro ⟨prior, hp, r, hr, rfl⟩
    obtain ⟨_, he, _⟩ := BlockHeaderState.next_extends hr
    exact he.blockNum.trans_lt (h prior (Index.find?_eq_some.mp hp).1)
  pruned _ _ he := by cases he

lemma testRoot_wellFormed : WellFormed slotCrypto testRoot := ⟨rfl, rfl, by decide +kernel⟩

lemma forked_sized : Run slotCrypto (Sized slotCrypto) testRoot forked := by
  apply Run.grow
  · apply Run.markCurrent
    · apply Run.grow
      · exact .start
      · exact sized_of_rows (by decide +kernel)
      · decide +kernel
    · exact ⟨fun _ hi => hi.elim, fun _ _ he => by cases he⟩
    · decide +kernel
  · exact sized_of_rows (by decide +kernel)
  · decide +kernel

theorem forked_branches_meet : forked.index.rows.length = 3 ∧ ∃ first second,
    forked.index.fetchBranchFrom upper.id lower.id = some (first, second) ∧
    forked.index.Meeting upper lower first second :=
  ⟨by decide +kernel, (run_closed_with_branches forked_sized testRoot_wellFormed).2 upper (by decide +kernel) lower
    (by decide +kernel)⟩

end

end ForkDatabase

end XosChain.Fork
