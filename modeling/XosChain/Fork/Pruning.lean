import Mathlib.Data.List.TakeWhile
import XosChain.Fork.Branches
import XosChain.Fork.Database

namespace XosChain.Fork

open Lib Header List BlockState Index

namespace Index

structure ParentsKept (idx idx' : Index) : Prop where
  sub : ∀ s ∈ idx'.rows, s ∈ idx.rows
  parent : ∀ s ∈ idx'.rows, ∀ p ∈ idx.rows, p.id = s.prev → p ∈ idx'.rows

def Rooted (base : BlockId) (num : ℕ) (idx : Index) : Prop :=
  ∀ s ∈ idx.rows, s.prev = base ∧ s.blockNum = num ∨ ∃ p ∈ idx.rows, p.id = s.prev ∧ s.blockNum = p.blockNum + 1

section

variable {idx idx' idx'' : Index} {base id : BlockId} {num : ℕ} {s p : BlockState}

lemma ParentsKept.refl (idx : Index) : ParentsKept idx idx := ⟨fun _ h => h, fun _ _ _ h _ => h⟩

lemma ParentsKept.trans (h : ParentsKept idx idx') (h' : ParentsKept idx' idx'') : ParentsKept idx idx'' where
  sub s hs := h.sub s (h'.sub s hs)
  parent s hs p hp he := h'.parent s hs p (h.parent s (h'.sub s hs) p hp he) he

lemma removeBranch_parentsKept (idx : Index) (id : BlockId) : ParentsKept idx (idx.removeBranch id) where
  sub s hs := (mem_removeBranch.mp hs).1
  parent s hs p hp he := by
    obtain ⟨hs, hd⟩ := mem_removeBranch.mp hs
    exact mem_removeBranch.mpr ⟨hp, fun hdp => hd (.child hs (he ▸ hdp))⟩

lemma Rooted.num_le (h : Rooted base num idx) (hs : s ∈ idx.rows) : num ≤ s.blockNum := by
  generalize hn : s.blockNum = n
  induction n using Nat.strong_induction_on generalizing s with
  | _ n ih =>
    rcases h s hs with ⟨_, he⟩ | ⟨p, hp, _, he⟩
    · exact (he.symm.trans hn).le
    · exact (ih p.blockNum (by omega) hp rfl).trans (by omega)

lemma Rooted.lowest (h : Rooted base num idx) (hs : s ∈ idx.rows) (hmin : ∀ t ∈ idx.rows, s.blockNum ≤ t.blockNum) :
    s.prev = base ∧ s.blockNum = num := by
  rcases h s hs with hroot | ⟨p, hp, _, he⟩
  · exact hroot
  · exact absurd (hmin p hp) (by omega)

lemma Rooted.insert (h : Rooted base num idx) (hi : idx.insert s = some idx') (hp : p ∈ idx.rows) (he : p.id = s.prev)
    (hn : s.blockNum = p.blockNum + 1) : Rooted base num idx' := by
  intro t ht
  rw [(insert_eq_some hi).2] at ht ⊢
  rcases mem_append.mp ht with ht | ht
  · rcases h t ht with hroot | ⟨q, hq, hqe⟩
    · exact .inl hroot
    · exact .inr ⟨q, mem_append_left _ hq, hqe⟩
  · rw [mem_singleton.mp ht]
    exact .inr ⟨p, mem_append_left _ hp, he, hn⟩

lemma Rooted.parentsKept (h : Rooted base num idx) (hk : ParentsKept idx idx') : Rooted base num idx' := by
  intro s hs
  rcases h s (hk.sub s hs) with hroot | ⟨p, hp, he, hn⟩
  · exact .inl hroot
  · exact .inr ⟨p, hk.parent s hs p hp he, he, hn⟩

def Mapped (P : BlockState → BlockState → Prop) (idx idx' : Index) : Prop :=
  ∃ g : BlockState → BlockState, idx'.rows = idx.rows.map g ∧ ∀ s ∈ idx.rows, P s (g s)

section

variable {P : BlockState → BlockState → Prop}

lemma Mapped.refl (hP : ∀ s, P s s) (idx : Index) : Mapped P idx idx := ⟨fun s => s, (map_id _).symm, fun s _ => hP s⟩

lemma Mapped.trans (hP : ∀ s t u, P s t → P t u → P s u) (h : Mapped P idx idx') (h' : Mapped P idx' idx'') :
    Mapped P idx idx'' := by
  obtain ⟨g, he, hg⟩ := h
  obtain ⟨g', he', hg'⟩ := h'
  refine ⟨g' ∘ g, by rw [he', he, map_map], ?_⟩
  intro s hs
  exact hP _ _ _ (hg s hs) (hg' (g s) (he ▸ mem_map_of_mem hs))

lemma Mapped.modify (hP : ∀ s, P s s) {f : BlockState → BlockState} (hf : ∀ s, (f s).id = s.id) (h : ∀ s, P s (f s)) :
    Mapped P idx (idx.modify id f hf) := by
  refine ⟨fun s => if s.id = id then f s else s, rfl, ?_⟩
  intro s _
  dsimp only
  split_ifs
  · exact h s
  · exact hP s

end

def SameShape : Index → Index → Prop := Mapped fun s t => t.id = s.id ∧ t.prev = s.prev ∧ t.blockNum = s.blockNum

lemma SameShape.refl (idx : Index) : SameShape idx idx := Mapped.refl (fun _ => ⟨rfl, rfl, rfl⟩) idx

lemma SameShape.trans (h : SameShape idx idx') (h' : SameShape idx' idx'') : SameShape idx idx'' := by
  refine Mapped.trans ?_ h h'
  rintro _ _ _ ⟨hi, hp, hn⟩ ⟨hi', hp', hn'⟩
  exact ⟨hi'.trans hi, hp'.trans hp, hn'.trans hn⟩

lemma SameShape.modify {f : BlockState → BlockState} (hf : ∀ s, (f s).id = s.id) (hp : ∀ s, (f s).prev = s.prev)
    (hn : ∀ s, (f s).blockNum = s.blockNum) : SameShape idx (idx.modify id f hf) :=
  Mapped.modify (fun _ => ⟨rfl, rfl, rfl⟩) hf fun s => ⟨hf s, hp s, hn s⟩

lemma SameShape.setBftIrreversible (idx : Index) (b : BlockState) : SameShape idx (idx.setBftIrreversible b) := by
  obtain ⟨g, he, hg⟩ := idx.setBftIrreversible_rows b
  refine ⟨g, he, ?_⟩
  intro s hs
  rcases hg s hs with ⟨_, hs⟩ | ⟨_, hs⟩
  · rw [hs]
    exact ⟨rfl, rfl, rfl⟩
  · rw [hs]
    exact ⟨rfl, rfl, rfl⟩

lemma SameShape.mem (h : SameShape idx idx') (hs : s ∈ idx.rows) :
    ∃ t ∈ idx'.rows, t.id = s.id ∧ t.prev = s.prev ∧ t.blockNum = s.blockNum := by
  obtain ⟨g, he, hg⟩ := h
  exact ⟨g s, he ▸ mem_map_of_mem hs, hg s hs⟩

lemma Rooted.sameShape (h : Rooted base num idx) (hs : SameShape idx idx') : Rooted base num idx' := by
  obtain ⟨g, he, hg⟩ := hs
  intro t ht
  rw [he] at ht ⊢
  obtain ⟨s, hs, rfl⟩ := mem_map.mp ht
  obtain ⟨_, hprev, hnum⟩ := hg s hs
  rw [hprev, hnum]
  rcases h s hs with hroot | ⟨p, hp, hid, hn⟩
  · exact .inl hroot
  · obtain ⟨hid', _, hnum'⟩ := hg p hp
    exact .inr ⟨g p, mem_map_of_mem hp, hid'.trans hid, by rw [hnum', hn]⟩

lemma Rooted.release (h : Rooted base num idx) (hs : s ∈ idx.rows) (hnum : s.blockNum = num)
    (hk : ParentsKept (idx.erase s.id) idx') (hlevel : ∀ t ∈ idx'.rows, t.blockNum ≠ num) :
    Rooted s.id (num + 1) idx' := by
  intro t ht
  have ht' := mem_erase.mp (hk.sub t ht)
  rcases h t ht'.1 with ⟨_, he⟩ | ⟨p, hp, he, hn⟩
  · exact absurd he (hlevel t ht)
  · by_cases hps : p.id = s.id
    · obtain rfl := eq_of_id hp hs hps
      exact .inl ⟨he.symm, hn.trans (by rw [hnum])⟩
    · exact .inr ⟨p, hk.parent t ht p (mem_erase.mpr ⟨hp, hps⟩) he, he, hn⟩

end

end Index

namespace ForkDatabase

variable {db : ForkDatabase} {num : ℕ} {s t : BlockState} {rest : List BlockState}

lemma numKey_le {s t : BlockState} (h : s.numKey ≤ t.numKey) : s.blockNum ≤ t.blockNum := by
  rcases Prod.Lex.le_iff.mp h with h | h
  · exact h.le
  · exact h.1.le

lemma mem_lowerBound (hs : s ∈ db.index.rows) (hn : num ≤ s.blockNum) : s ∈ db.lowerBound num := by
  have hmem := db.index.num_perm.mem_iff.mpr hs
  rw [← takeWhile_append_dropWhile (p := fun s : BlockState => decide (s.blockNum < num)) (l := db.index.byBlockNum)]
    at hmem
  rcases mem_append.mp hmem with htake | hdrop
  · have hlt := mem_takeWhile_imp htake
    exact absurd (of_decide_eq_true hlt) (not_lt.mpr hn)
  · exact hdrop

lemma lowerBound_mem (h : s ∈ db.lowerBound num) : s ∈ db.index.rows :=
  db.index.num_perm.mem_iff.mp ((dropWhile_sublist _).mem h)

lemma lowerBound_le (h : db.lowerBound num = s :: rest) (ht : t ∈ s :: rest) : s.blockNum ≤ t.blockNum := by
  have ho : Ordered numKey (s :: rest) := h ▸ db.index.num_ordered.sublist (dropWhile_sublist _)
  exact numKey_le (ho.head_le ht)

lemma lowerBound_head (h : db.lowerBound num = s :: rest) : num ≤ s.blockNum := by
  have hdrop := head?_dropWhile_not (fun s : BlockState => decide (s.blockNum < num)) db.index.byBlockNum
  rw [show db.index.byBlockNum.dropWhile (fun s => decide (s.blockNum < num)) = s :: rest from h] at hdrop
  simpa using hdrop

lemma pruneLower_of_lowest {handler : Handler} (hl : ∀ s ∈ db.index.rows, num ≤ s.blockNum) (fuel : ℕ) :
    pruneLower handler num fuel db = .ok () db := by
  cases fuel with
  | zero => rfl
  | succ fuel =>
    rw [pruneLower, getBind_apply]
    cases hb : db.index.byBlockNum.head? with
    | none => rfl
    | some s =>
      simp only
      rw [if_neg (not_lt.mpr (hl s (byBlockNum_head hb).1))]
      rfl

lemma refreshHead_spec (db : ForkDatabase) :
    Triple (· = db) refreshHead
      (fun _ db' => ∃ b, db.index.byLibBlockNum.head? = some b ∧ db' = { db with head := some b.id })
      (fun e _ => e.code = .undefinedBehavior) := by
  refine .getBind_eq ?_
  cases hb : db.index.byLibBlockNum.head? with
  | none => exact .throw _ (fun _ _ => rfl)
  | some b => exact .modify_eq ⟨b, rfl, rfl⟩

lemma remove_spec (db : ForkDatabase) (id : BlockId) :
    Triple (· = db) (remove id)
      (fun _ db' => db'.index = db.index.removeBranch id ∧ db'.signalled = db.signalled)
      (fun e _ => e.code = .undefinedBehavior) := by
  refine .getBind_eq ?_
  refine .modifyBind ((refreshHead_spec _).conseq (fun _ h => h) ?_ (fun _ _ h => h))
  rintro _ _ ⟨b, _, rfl⟩
  exact ⟨rfl, rfl⟩

section

variable {c : Crypto} {handler : Handler} {h n : BlockState} {P : ForkDatabase → Prop} {Q : Unit → ForkDatabase → Prop}
  {R : Thrown → ForkDatabase → Prop}

lemma require_rule (p : Prop) [Decidable p] {code : Exception} {what : String} (hsame : ∀ e, R e db) :
    Triple (· = db) (require p code what) (fun _ => (· = db)) R := by
  rw [require]
  split_ifs
  · exact .pure_eq rfl
  · exact .throw_eq (hsame _)

structure KeptByFlags (P : ForkDatabase → Prop) : Prop where
  mark : ∀ db id flag, P db → P { db with index := db.index.modify id (.mark flag) (mark_id flag) }
  validate : ∀ db id, P db → P { db with index := db.index.modify id .validate validate_id }

lemma markInCurrentChain_keeps (hP : KeptByFlags P) (h : BlockState) (flag : Bool) :
    Triple P (markInCurrentChain h flag) (fun _ => P) (fun _ => P) := by
  rw [markInCurrentChain]
  split_ifs
  · exact .pure _ fun _ hdb => hdb
  · refine .getBind fun db hdb => .bind (require_rule _ fun _ => hdb) fun _ => ?_
    exact .modify_eq (hP.mark db h.id flag hdb)

lemma irreversible_keeps (hP : KeptByFlags P) (s : BlockState) :
    Triple (fun db => P { db with signalled := db.signalled ++ [⟨s, db.index, db.head⟩] }) (irreversible handler s)
      (fun _ => P) (fun _ => P) := by
  refine .bind (Q := fun _ => P) (.modify fun _ hdb => hdb) fun _ => ?_
  cases handler s with
  | error e => exact .throw _ fun _ hdb => hdb
  | ok applied =>
    cases applied with
    | none => exact .pure _ fun _ hdb => hdb
    | some b =>
      refine .bind (markInCurrentChain_keeps hP b true) fun _ => .getBind fun db hdb => ?_
      exact .modify_eq (hP.validate db b.id hdb)

lemma setValidity_rule (hremove : Triple (· = db) (remove h.id) Q R)
    (hvalid : Q () { db with index := db.index.modify h.id .validate validate_id }) (valid : Bool) :
    Triple (· = db) (setValidity h valid) Q R := by
  rw [setValidity]
  split_ifs
  · exact hremove
  · exact .getBind_eq (.modify_eq hvalid)

lemma add_rule (hsame : ∀ e, R e db) (hundefined : ∀ e db', e.code = .undefinedBehavior → R e db')
    (hnext : ∀ idx best, db.index.insert n = some idx → idx.byLibBlockNum.head? = some best →
      ((∀ oldest, idx.byBlockNum.head? = some oldest → best.dposIrreversibleBlocknum ≤ oldest.blockNum) →
        Q () { db with index := idx, head := some best.id }) ∧ ∀ oldest, idx.byBlockNum.head? = some oldest →
        oldest.blockNum < best.dposIrreversibleBlocknum →
        Triple (· = { db with index := idx, head := some best.id }) (prune handler oldest) Q R) :
    Triple (· = db) (add handler n) Q R := by
  refine .seq (Q := fun _ db' => ∃ idx, db.index.insert n = some idx ∧ db' = { db with index := idx }) ?_ ?_
  · refine .getBind_eq ?_
    cases hi : db.index.insert n with
    | none => exact .throw_eq (hsame _)
    | some idx => exact .modify_eq ⟨idx, rfl, rfl⟩
  rintro _ _ ⟨idx, hi, rfl⟩
  refine .seq ((refreshHead_spec _).weaken hundefined) ?_
  rintro _ _ ⟨best, hbest, rfl⟩
  obtain ⟨hQ, hprune⟩ := hnext idx best hi hbest
  have hget : idx.find? best.id = some best := find?_eq_some.mpr ⟨(byLibBlockNum_head hbest).1, rfl⟩
  refine .getBind_eq ?_
  cases hold : idx.byBlockNum.head? with
  | none => exact .pure_eq (hQ fun _ h => by rw [hold] at h; cases h)
  | some oldest =>
    simp only [Option.bind_some, getBlock, hget, Option.map_some, Option.getD_some]
    split_ifs with hlt
    · exact hprune oldest hold hlt
    · refine .pure_eq (hQ ?_)
      intro oldest' hold'
      rw [hold] at hold'
      cases hold'
      exact not_lt.mp hlt

lemma addBlock_rule {b : SignedBlockHeader} {trust : Bool} (hsame : ∀ e, R e db)
    (hadd : ∀ prior r, db.getBlock b.previous = some prior → prior.next c b trust = .ok r →
      Triple (· = db) (add handler { r with }) Q R) : Triple (· = db) (addBlock c handler b trust) Q R := by
  refine .getBind_eq (.bind (require_rule _ hsame) fun _ => .bind (require_rule _ hsame) fun _ => ?_)
  cases hp : db.getBlock b.previous with
  | none => exact .throw_eq (hsame _)
  | some prior =>
    dsimp only
    cases hn : prior.next c b trust with
    | error e => exact .throw_eq (hsame e)
    | ok r => exact hadd prior r hp hn

lemma addConfirmation_rule {conf : HeaderConfirmation} (hsame : ∀ e, R e db)
    (hconfirm : ∀ b, db.getBlock conf.blockId = some b →
      Q () { db with index := db.index.modify b.id (.confirm conf) (confirm_id conf) } ∧
      (b.bftIrreversibleBlocknum < b.blockNum →
        b.confirmations.length + 1 ≥ BlockHeaderState.requiredConfs b.activeSchedule →
        Q () { db with
          index := (db.index.modify b.id (.confirm conf) (confirm_id conf)).setBftIrreversible b })) :
    Triple (· = db) (addConfirmation c conf) Q R := by
  refine .getBind_eq ?_
  cases hb : db.getBlock conf.blockId with
  | none => exact .throw_eq (hsame _)
  | some b =>
    obtain ⟨hQ, hquorum⟩ := hconfirm b hb
    dsimp only
    cases hconf : b.toBlockHeaderState.addConfirmation c conf with
    | error e => exact .throw_eq (hsame e)
    | ok confirmed =>
      iterate 3 obtain ⟨-, hconf⟩ := eosAssert_ok hconf
      cases hconf
      refine .getBind_eq (.modifyBind ?_)
      split_ifs with hq
      · exact .getBind_eq (.modify_eq (hquorum hq.1 (length_append ▸ hq.2 :)))
      · exact .pure_eq hQ

lemma prune_rule (hmin : ∀ s ∈ db.index.rows, h.blockNum ≤ s.blockNum)
    (hlevel : Triple (· = db) (pruneLevel handler h) Q R) : Triple (· = db) (prune handler h) Q R := by
  refine .getBind_eq (.bind (Q := fun _ => (· = db)) ?_ fun _ => hlevel)
  rintro _ rfl
  rw [pruneLower_of_lowest hmin]

end

lemma pruneSiblings_rule {P : ForkDatabase → Prop} (hP : ∀ db, P db → ∀ s ∈ db.index.rows, s.blockNum = num →
      Triple (· = db) (remove s.id) (fun _ => P) (fun e _ => e.code = .undefinedBehavior)) (fuel : ℕ) :
    Triple P (pruneSiblings num fuel) (fun _ => P) (fun e _ => e.code = .undefinedBehavior) := by
  induction fuel with
  | zero => exact .pure _ (fun _ h => h)
  | succ fuel ih =>
    refine .getBind fun db hdb => ?_
    cases hb : db.lowerBound num with
    | nil => exact .pure_eq hdb
    | cons s rest =>
      dsimp only
      split_ifs with hne
      · exact .pure_eq hdb
      · have hs : s ∈ db.index.rows := lowerBound_mem (hb ▸ mem_cons_self : s ∈ db.lowerBound num)
        refine .bind (hP db hdb s hs (not_not.mp hne)) fun _ => ?_
        cases rest.head? with
        | none => exact .pure _ (fun _ h => h)
        | some next =>
          refine .getBind fun db' hdb' => .bind (Q := fun _ => P) ?_ fun _ => ih
          rw [require]
          split_ifs
          · exact .pure_eq hdb'
          · exact .throw _ (fun _ _ => rfl)

lemma pruneSiblings_spec (num fuel : ℕ) (db : ForkDatabase) (hf : db.index.rows.length ≤ fuel) :
    Triple (· = db) (pruneSiblings num fuel)
      (fun _ db' => ParentsKept db.index db'.index ∧ (∀ s ∈ db'.index.rows, s.blockNum ≠ num) ∧
        db'.signalled = db.signalled)
      (fun e _ => e.code = .undefinedBehavior) := by
  induction fuel generalizing db with
  | zero =>
    refine .pure_eq ?_
    have hnil := length_eq_zero_iff.mp (Nat.le_zero.mp hf)
    refine ⟨.refl _, ?_, rfl⟩
    intro s hs
    rw [hnil] at hs
    cases hs
  | succ fuel ih =>
    refine .getBind_eq ?_
    cases hb : db.lowerBound num with
    | nil =>
      refine .pure_eq ?_
      refine ⟨.refl _, ?_, rfl⟩
      intro s hs hn
      have := mem_lowerBound hs hn.ge
      rw [hb] at this
      cases this
    | cons s rest =>
      dsimp only
      have hmem : s ∈ db.index.rows := lowerBound_mem (hb ▸ mem_cons_self : s ∈ db.lowerBound num)
      split_ifs with hne
      · refine .pure_eq ?_
        refine ⟨.refl _, ?_, rfl⟩
        intro t ht hn
        have htl := mem_lowerBound ht hn.ge
        rw [hb] at htl
        have hle := lowerBound_le hb htl
        have hge := lowerBound_head hb
        omega
      · refine .bind (remove_spec db s.id) ?_
        intro _
        have hlt := removeBranch_length_lt hmem
        have hkept := db.index.removeBranch_parentsKept s.id
        cases hr : rest.head? with
        | none =>
          refine .pure _ ?_
          rintro db' ⟨hidx, hsig⟩
          refine ⟨hidx ▸ hkept, ?_, hsig⟩
          intro t ht hn
          rw [hidx] at ht
          obtain ⟨ht, hd⟩ := mem_removeBranch.mp ht
          have htl := mem_lowerBound ht hn.ge
          rw [hb, head?_eq_none_iff.mp hr] at htl
          exact hd (mem_singleton.mp htl ▸ .self)
        | some next =>
          refine .getBind ?_
          rintro db' ⟨hidx, hsig⟩
          refine .bind (Q := fun _ => (· = db')) ?_ ?_
          · rw [require]
            split_ifs
            · exact .pure _ (fun _ h => h)
            · exact .throw _ (fun _ _ => rfl)
          · intro _
            refine (ih db' (by rw [hidx]; omega)).conseq (fun _ h => h) ?_ (fun _ _ h => h)
            rintro _ db'' ⟨hkept', hlevel, hsig'⟩
            exact ⟨hkept.trans (hidx ▸ hkept'), hlevel, hsig'.trans hsig⟩

end ForkDatabase

end XosChain.Fork
