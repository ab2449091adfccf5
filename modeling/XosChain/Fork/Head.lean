import XosChain.Fork.Pruning
import XosChain.Header.Irreversible

namespace XosChain.Fork

open Lib Header List Index BlockState

namespace ForkDatabase

def HeadMaximal (db : ForkDatabase) : Prop :=
  ∃ s ∈ db.index.rows, db.head = some s.id ∧ ∀ t ∈ db.index.rows, t.rank ≤ s.rank

def AllOrdered (db : ForkDatabase) : Prop := ∀ s ∈ db.index.rows, s.toBlockHeaderState.Ordered

structure Good (db : ForkDatabase) : Prop where
  ordered : db.AllOrdered
  maximal : db.HeadMaximal

def GoodUnless (e : Thrown) (db : ForkDatabase) : Prop := e.code ≠ .undefinedBehavior → db.Good

lemma goodUnless_of_good (e : Thrown) (db : ForkDatabase) (h : db.Good) : GoodUnless e db := fun _ => h

lemma goodUnless_of_undefined (e : Thrown) (db : ForkDatabase) (h : e.code = .undefinedBehavior) : GoodUnless e db :=
  fun hne => absurd h hne

section

variable {id : BlockId} {h n : BlockState} {handler : Handler}

variable {db : ForkDatabase} {b : BlockState}

lemma Good.modify (hg : db.Good) {f : BlockState → BlockState} (hf : ∀ s, (f s).id = s.id)
    (hr : ∀ s, (f s).rank = s.rank) (ho : ∀ s, s.toBlockHeaderState.Ordered → (f s).toBlockHeaderState.Ordered) :
    Good { db with index := db.index.modify id f hf } := by
  have hrank : ∀ s : BlockState, (if s.id = id then f s else s).rank = s.rank := by
    intro s
    split_ifs
    · exact hr s
    · rfl
  obtain ⟨s, hs, hhead, hmax⟩ := hg.maximal
  have hmem : (if s.id = id then f s else s) ∈ (db.index.modify id f hf).rows := (mem_modify hf).mpr ⟨s, hs, rfl⟩
  refine ⟨?_, _, hmem, ?_, ?_⟩
  · intro t ht
    obtain ⟨s, hs, rfl⟩ := (mem_modify hf).mp ht
    split_ifs
    · exact ho s (hg.ordered s hs)
    · exact hg.ordered s hs
  · rw [hhead]
    split_ifs
    · rw [hf]
    · rfl
  · intro t ht
    obtain ⟨u, hu, rfl⟩ := (mem_modify hf).mp ht
    rw [hrank, hrank]
    exact hmax u hu

lemma refreshHead_good : Triple AllOrdered refreshHead (fun _ => Good) (fun e _ => e.code = .undefinedBehavior) := by
  refine .pointwise fun db ho => (refreshHead_spec db).conseq (fun _ h => h) ?_ (fun _ _ h => h)
  rintro _ _ ⟨s, hb, rfl⟩
  obtain ⟨hs, hmax⟩ := byLibBlockNum_head hb
  exact ⟨ho, s, hs, rfl, hmax⟩

lemma remove_good : Triple AllOrdered (remove id) (fun _ => Good) (fun e _ => e.code = .undefinedBehavior) := by
  refine .getBind ?_
  intro db ho
  refine .bind (Q := fun _ => AllOrdered) (.modify ?_) (fun _ => refreshHead_good)
  rintro _ rfl
  exact fun s hs => ho s (mem_removeBranch.mp hs).1

lemma markInCurrentChain_good (h : BlockState) (flag : Bool) :
    Triple Good (markInCurrentChain h flag) (fun _ => Good) (fun _ => Good) := by
  refine markInCurrentChain_keeps ⟨?_, ?_⟩ h flag
  · exact fun _ _ _ hg => hg.modify _ (fun _ => rfl) (fun _ ho => ho)
  · exact fun _ _ hg => hg.modify _ (fun _ => rfl) (fun _ ho => ho)

lemma setValidity_good {valid : Bool} :
    Triple Good (setValidity h valid) (fun _ => Good) (fun e _ => e.code = .undefinedBehavior) :=
  .pointwise fun _ hg =>
    setValidity_rule (remove_good.of_eq hg.ordered) (hg.modify _ (fun _ => rfl) (fun _ ho => ho)) valid

lemma pruneSiblings_good (num fuel : ℕ) :
    Triple Good (pruneSiblings num fuel) (fun _ => Good) (fun e _ => e.code = .undefinedBehavior) :=
  pruneSiblings_rule (fun _ hg _ _ _ => remove_good.of_eq hg.ordered) fuel

structure GoodBut (id : BlockId) (db : ForkDatabase) : Prop extends Good db where
  head_ne : db.head ≠ some id

lemma goodBut_kept (id : BlockId) : KeptByFlags (GoodBut id) where
  mark _ _ _ hg := ⟨hg.toGood.modify _ (fun _ => rfl) (fun _ ho => ho), hg.head_ne⟩
  validate _ _ hg := ⟨hg.toGood.modify _ (fun _ => rfl) (fun _ ho => ho), hg.head_ne⟩

lemma irreversible_good (id : BlockId) (s : BlockState) :
    Triple (GoodBut id) (irreversible handler s) (fun _ => GoodBut id) GoodUnless := by
  refine (irreversible_keeps (goodBut_kept id) s).conseq ?_ (fun _ _ hg => hg) (fun _ _ hg _ => hg.toGood)
  exact fun _ hg => ⟨⟨hg.ordered, hg.maximal⟩, hg.head_ne⟩

lemma GoodBut.erase (hg : db.GoodBut id) : Good { db with index := db.index.erase id } := by
  obtain ⟨s, hs, hhead, hmax⟩ := hg.maximal
  have hne : s.id ≠ id := fun he => hg.head_ne (he ▸ hhead)
  refine ⟨?_, s, mem_erase.mpr ⟨hs, hne⟩, hhead, ?_⟩
  · exact fun t ht => hg.ordered t (mem_erase.mp ht).1
  · exact fun t ht => hmax t (mem_erase.mp ht).1

lemma releaseBlock_good : Triple (GoodBut h.id) (releaseBlock handler h) (fun _ => Good) GoodUnless := by
  refine .getBind ?_
  intro db hg
  cases db.getBlock h.id with
  | none => exact .pure_eq hg.toGood
  | some s =>
    refine .bind ((irreversible_good h.id s).of_eq hg) ?_
    intro _
    refine .getBind ?_
    intro db' hg'
    exact .modify_eq hg'.erase

lemma pruneLevel_good : Triple (GoodBut h.id) (pruneLevel handler h) (fun _ => Good) GoodUnless := by
  refine .bind releaseBlock_good ?_
  intro _
  refine .getBind ?_
  intro db hg
  exact ((pruneSiblings_good h.blockNum _).weaken goodUnless_of_undefined).of_eq hg

structure Prunable (h : BlockState) (db : ForkDatabase) : Prop where
  lowest : ∀ s ∈ db.index.rows, h.blockNum ≤ s.blockNum
  head_ne : db.head ≠ some h.id

lemma prune_good : Triple (fun db => db.Good ∧ db.Prunable h) (prune handler h) (fun _ => Good) GoodUnless := by
  apply Triple.pointwise
  rintro db ⟨hg, hp⟩
  exact prune_rule hp.lowest (pruneLevel_good.of_eq ⟨hg, hp.head_ne⟩)

lemma add_good (hn : n.toBlockHeaderState.Ordered) : Triple Good (add handler n) (fun _ => Good) GoodUnless := by
  refine .pointwise fun db hg => add_rule (fun _ _ => hg) goodUnless_of_undefined fun idx best hi hbest => ?_
  obtain ⟨hs, hmax⟩ := byLibBlockNum_head hbest
  have ho : ∀ s ∈ idx.rows, s.toBlockHeaderState.Ordered := by
    intro s hs
    rw [(insert_eq_some hi).2] at hs
    rcases mem_append.mp hs with hs | hs
    · exact hg.ordered s hs
    · rw [mem_singleton.mp hs]
      exact hn
  have hg' : Good { db with index := idx, head := some best.id } := ⟨ho, best, hs, rfl, hmax⟩
  refine ⟨fun _ => hg', fun oldest hold hlt => prune_good.of_eq ⟨hg', ?_, ?_⟩⟩
  · exact fun t ht => numKey_le ((byBlockNum_head hold).2 t ht)
  · intro he
    obtain rfl := eq_of_id hs (byBlockNum_head hold).1 (Option.some.inj he)
    have hnum := (ho best hs).irreversible.trans ((Nat.le_add_right _ _).trans (ho best hs).counters)
    exact absurd hlt (not_lt.mpr hnum)

lemma rank_le_setBft {s : BlockState} {num : ℕ} (hs : s.bftIrreversibleBlocknum ≤ num) :
    s.rank ≤ (s.setBft num).rank := by
  refine Prod.Lex.toLex_le_toLex.mpr (.inr ⟨rfl, Prod.Lex.toLex_le_toLex.mpr ?_⟩)
  rcases hs.lt_or_eq with hlt | heq
  · exact .inl hlt
  · exact .inr ⟨heq, le_rfl⟩

def LiftKeepsHead (b : BlockState) (db : ForkDatabase) : Prop :=
  ∀ h ∈ db.index.rows, db.head = some h.id → ∀ s ∈ db.index.rows, db.index.Lifted b s.id →
    (s.setBft b.blockNum).rank ≤ h.rank ∨
      db.index.Lifted b h.id ∧ (s.setBft b.blockNum).rank ≤ (h.setBft b.blockNum).rank

lemma Good.lift {b0 : BlockState} (hg : db.Good) (hb : b0 ∈ db.index.rows) (hid : b0.id = b.id)
    (hlt : b0.bftIrreversibleBlocknum < b.blockNum) (hk : db.LiftKeepsHead b) :
    Good { db with index := db.index.setBftIrreversible b } := by
  obtain ⟨g, hrows, hcases⟩ := db.index.setBftIrreversible_rows b
  obtain ⟨h, hh, hhead, hmax⟩ := hg.maximal
  have hmem : g h ∈ (db.index.setBftIrreversible b).rows := hrows ▸ mem_map_of_mem hh
  refine ⟨?_, g h, hmem, ?_, ?_⟩
  · intro t ht
    obtain ⟨s, hs, rfl⟩ := mem_map.mp (hrows ▸ ht)
    rcases hcases s hs with ⟨_, he⟩ | ⟨_, he⟩
    · have ho := hg.ordered s hs
      rw [he]
      exact ⟨ho.producers, ho.impliedIrb, ho.irreversible, ho.counters, ho.lastProduced⟩
    · rw [he]
      exact hg.ordered s hs
  · rcases hcases h hh with ⟨_, he⟩ | ⟨_, he⟩
    · rw [he]
      exact hhead
    · rw [he]
      exact hhead
  · have hup : h.rank ≤ (g h).rank := by
      rcases hcases h hh with ⟨hl, he⟩ | ⟨_, he⟩
      · rw [he]
        exact rank_le_setBft (Lifted.bft_lt hb hid hlt hh hl).le
      · rw [he]
    intro t ht
    obtain ⟨s, hs, rfl⟩ := mem_map.mp (hrows ▸ ht)
    rcases hcases s hs with ⟨hl, he⟩ | ⟨_, he⟩
    · rw [he]
      rcases hk h hh hhead s hs hl with hle | ⟨hl', hle⟩
      · exact hle.trans hup
      · rcases hcases h hh with ⟨_, he'⟩ | ⟨hnot, _⟩
        · rwa [he']
        · exact absurd hl' hnot
    · rw [he]
      exact (hmax s hs).trans hup

lemma lifted_confirm_iff {idx : Index} {i j : BlockId} (conf : HeaderConfirmation) :
    (idx.modify i (.confirm conf) (confirm_id conf)).Lifted b j ↔ idx.Lifted b j := by
  constructor
  · intro h
    induction h with
    | self => exact .self
    | child ht hlt _ ih =>
      obtain ⟨s, hs, rfl⟩ := (mem_modify _).mp ht
      split_ifs at hlt ih ⊢
      · exact Lifted.child (s := s) hs hlt ih
      · exact .child hs hlt ih
  · intro h
    induction h with
    | self => exact .self
    | @child s hs hlt _ ih =>
      have ht : (if s.id = i then s.confirm conf else s) ∈
          (idx.modify i (.confirm conf) (confirm_id conf)).rows := (mem_modify _).mpr ⟨s, hs, rfl⟩
      split_ifs at ht
      · exact Lifted.child (s := s.confirm conf) ht hlt ih
      · exact .child ht hlt ih

lemma LiftKeepsHead.confirm (hk : db.LiftKeepsHead b) (i : BlockId) (conf : HeaderConfirmation) :
    LiftKeepsHead b { db with index := db.index.modify i (.confirm conf) (confirm_id conf) } := by
  intro h hh hhead s hs hl
  obtain ⟨h0, hh0, rfl⟩ := (mem_modify (confirm_id conf)).mp hh
  obtain ⟨s0, hs0, rfl⟩ := (mem_modify (confirm_id conf)).mp hs
  rw [lifted_confirm_iff] at hl ⊢
  have hid : ∀ t : BlockState, (if t.id = i then t.confirm conf else t).id = t.id := by
    intro t
    split_ifs <;> rfl
  have hrank : ∀ t : BlockState, (if t.id = i then t.confirm conf else t).rank = t.rank := by
    intro t
    split_ifs <;> rfl
  have hset : ∀ (t : BlockState) (num : ℕ),
      (setBft num (if t.id = i then t.confirm conf else t)).rank = (t.setBft num).rank := by
    intro t num
    split_ifs <;> rfl
  rw [hid] at hhead hl
  rw [hrank, hset, hset, hid]
  exact hk h0 hh0 hhead s0 hs0 hl

def CompletesQuorum (b : BlockState) : Prop :=
  b.bftIrreversibleBlocknum < b.blockNum ∧
    b.confirmations.length + 1 ≥ BlockHeaderState.requiredConfs b.activeSchedule

def ConfirmKeepsHead (conf : HeaderConfirmation) (db : ForkDatabase) : Prop :=
  ∀ b, db.getBlock conf.blockId = some b → CompletesQuorum b → db.LiftKeepsHead b

lemma addConfirmation_good {c : Crypto} {conf : HeaderConfirmation} :
    Triple (fun db => db.Good ∧ db.ConfirmKeepsHead conf) (addConfirmation c conf) (fun _ => Good) (fun _ => Good) := by
  apply Triple.pointwise
  rintro db ⟨hg, hk⟩
  refine addConfirmation_rule (fun _ => hg) fun b hb => ?_
  have hg' : Good { db with index := db.index.modify b.id (.confirm conf) (confirm_id conf) } :=
    hg.modify _ (fun _ => rfl) (fun _ ho => ⟨ho.producers, ho.impliedIrb, ho.irreversible, ho.counters, ho.lastProduced⟩)
  refine ⟨hg', fun hlt hq => ?_⟩
  have hmem := (mem_modify (confirm_id conf)).mpr ⟨b, (find?_eq_some.mp hb).1, if_pos rfl⟩
  exact hg'.lift hmem rfl hlt ((hk b hb ⟨hlt, hq⟩).confirm b.id conf)

end

end ForkDatabase

end XosChain.Fork
