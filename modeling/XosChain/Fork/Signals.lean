import XosChain.Fork.Pruning
import XosChain.Fork.Run

namespace XosChain.Fork

open Lib Header List BlockState

namespace ForkDatabase

def OnBest (sig : Signal) : Prop := ∃ h, sig.head = some h ∧ sig.index.Descends sig.block.id h

structure Follows (signalled : List Signal) : Prop where
  linked : signalled.IsChain (fun a b => b.block.prev = a.block.id ∧ b.block.blockNum = a.block.blockNum + 1)
  best : ∀ sig ∈ signalled, OnBest sig

structure Tracked (db : ForkDatabase) : Prop where
  linked : db.signalled.IsChain (fun a b => b.block.prev = a.block.id ∧ b.block.blockNum = a.block.blockNum + 1)
  rooted : ∃ base num, db.index.Rooted base num ∧
    ∀ sig, db.signalled.getLast? = some sig → base = sig.block.id ∧ num = sig.block.blockNum + 1

def Precedes (idx : Index) (a t : BlockState) : Prop :=
  a.blockNum < t.blockNum ∨ a.blockNum = t.blockNum ∧
    (a.inCurrentChain = true ∧ t.inCurrentChain = false ∨
      a.inCurrentChain = t.inCurrentChain ∧ [a, t] <+ idx.byBlockNum)

def Undisputed (idx : Index) : Prop :=
  ∀ best, idx.byLibBlockNum.head? = some best → (∃ t ∈ idx.rows, t.blockNum < best.dposIrreversibleBlocknum) →
    ∃ a ∈ idx.rows, idx.Descends a.id best.id ∧ ∀ t ∈ idx.rows, t ≠ a → Precedes idx a t

def Inserts (c : Crypto) (db : ForkDatabase) : Op → BlockState → Prop
  | .add _ n, s => s = n
  | .addBlock _ b trust, s =>
    ∃ prior, db.getBlock b.previous = some prior ∧ ∃ r, prior.next c b trust = .ok r ∧ s = { r with }
  | _, _ => False

def Returns (handler : Handler) : Prop := ∀ s, ∃ r, handler s = .ok r ∧ ∀ h ∈ r, h.id = s.id

def Driven : Op → Prop
  | .add handler _ | .addBlock handler _ _ => Returns handler
  | .prune _ _ => False
  | _ => True

structure FollowsBest (c : Crypto) (db : ForkDatabase) (op : Op) : Prop where
  driven : Driven op
  best : ∀ n idx, Inserts c db op n → db.index.insert n = some idx → Undisputed idx

section

variable {idx : Index} {a s t best oldest : BlockState}

lemma precedes_of_first (ho : idx.byBlockNum.head? = some a) (ht : t ∈ idx.rows) (hne : t ≠ a) : Precedes idx a t := by
  obtain ⟨l, hl⟩ := head?_eq_some_iff.mp ho
  have hmem := idx.num_perm.mem_iff.mpr ht
  rw [hl] at hmem
  have htail : t ∈ l := (mem_cons.mp hmem).resolve_left hne
  rcases Prod.Lex.le_iff.mp ((Index.byBlockNum_head ho).2 t ht) with hlt | ⟨heq, hle⟩
  · exact .inl hlt
  · refine .inr ⟨heq, ?_⟩
    have hsub : [a, t] <+ idx.byBlockNum := hl ▸ (singleton_sublist.mpr htail).cons_cons a
    change (!a.inCurrentChain) ≤ (!t.inCurrentChain) at hle
    cases ha : a.inCurrentChain <;> cases htc : t.inCurrentChain
    · exact .inr ⟨rfl, hsub⟩
    · rw [ha, htc] at hle
      exact absurd hle (by decide)
    · exact .inl ⟨rfl, rfl⟩
    · exact .inr ⟨rfl, hsub⟩

lemma not_precedes_first (ho : idx.byBlockNum.head? = some s) (ha : a ∈ idx.rows) (hne : s ≠ a) : ¬ Precedes idx a s := by
  obtain ⟨l, hl⟩ := head?_eq_some_iff.mp ho
  have hkey := (Index.byBlockNum_head ho).2 a ha
  rintro (hlt | ⟨heq, ⟨hin, hout⟩ | ⟨_, hsub⟩⟩)
  · exact absurd (numKey_le hkey) (not_le.mpr hlt)
  · rcases Prod.Lex.le_iff.mp hkey with hlt | ⟨_, hle⟩
    · exact absurd heq (Nat.ne_of_gt hlt)
    · change (!s.inCurrentChain) ≤ (!a.inCurrentChain) at hle
      rw [hin, hout] at hle
      exact absurd hle (by decide)
  · have hnodup : (s :: l).Nodup := hl ▸ idx.num_perm.nodup_iff.mpr (Nodup.of_map _ idx.nodup)
    rw [hl] at hsub
    cases hsub with
    | cons _ h => exact (nodup_cons.mp hnodup).1 (h.mem (by simp))
    | cons_cons _ h => exact hne rfl

def PrunesBest (idx : Index) : Prop :=
  ∀ best oldest, idx.byLibBlockNum.head? = some best → idx.byBlockNum.head? = some oldest →
    oldest.blockNum < best.dposIrreversibleBlocknum → idx.Descends oldest.id best.id

lemma undisputed_iff : Undisputed idx ↔ PrunesBest idx := by
  constructor
  · intro hu best oldest hb ho hlt
    obtain ⟨hmem, _⟩ := Index.byBlockNum_head ho
    obtain ⟨a, ha, hd, hfirst⟩ := hu best hb ⟨oldest, hmem, hlt⟩
    by_cases hne : oldest = a
    · exact hne ▸ hd
    · exact absurd (hfirst oldest hmem hne) (not_precedes_first ho ha hne)
  · rintro hp best hb ⟨t, ht, hlt⟩
    obtain ⟨oldest, ho⟩ : ∃ oldest, idx.byBlockNum.head? = some oldest := by
      obtain ⟨oldest, l, hl⟩ := exists_cons_of_ne_nil (ne_nil_of_mem (idx.num_perm.mem_iff.mpr ht))
      exact ⟨oldest, by rw [hl, head?_cons]⟩
    obtain ⟨hmem, hmin⟩ := Index.byBlockNum_head ho
    have hlow := (numKey_le (hmin t ht)).trans_lt hlt
    exact ⟨oldest, hmem, hp best oldest hb ho hlow, fun t ht hne => precedes_of_first ho ht hne⟩

end

def Announced (idx : Index) (before after : List Signal) : Prop :=
  ∃ best, idx.byLibBlockNum.head? = some best ∧
    (after = before ∧ (∀ oldest, idx.byBlockNum.head? = some oldest → best.dposIrreversibleBlocknum ≤ oldest.blockNum) ∨
      ∃ oldest, idx.byBlockNum.head? = some oldest ∧ oldest.blockNum < best.dposIrreversibleBlocknum ∧
        after = before ++ [⟨oldest, idx, some best.id⟩])

lemma Announced.best_iff {idx : Index} {signalled signalled' : List Signal} (h : Announced idx signalled signalled')
    (hb : ∀ sig ∈ signalled, OnBest sig) : (∀ sig ∈ signalled', OnBest sig) ↔ Undisputed idx := by
  rw [undisputed_iff]
  obtain ⟨best, hbest, ⟨rfl, hnone⟩ | ⟨oldest, ho, hlt, rfl⟩⟩ := h
  · refine iff_of_true hb ?_
    intro best' oldest hbest' ho hlt
    rw [hbest] at hbest'
    cases hbest'
    exact absurd hlt (not_lt.mpr (hnone oldest ho))
  · constructor
    · intro hall best' oldest' hbest' ho' _
      rw [hbest] at hbest'
      rw [ho] at ho'
      cases hbest'
      cases ho'
      obtain ⟨h, hh, hd⟩ := hall _ (mem_append_right _ mem_cons_self)
      cases hh
      exact hd
    · intro hp sig hsig
      rcases mem_append.mp hsig with hsig | hsig
      · exact hb sig hsig
      · rw [mem_singleton.mp hsig]
        exact ⟨best.id, rfl, hp best oldest hbest ho hlt⟩

section

variable {db db' : ForkDatabase} {h n s : BlockState} {handler : Handler} {base id : BlockId} {num : ℕ}

lemma Tracked.sameShape (ht : db.Tracked) (hs : Index.SameShape db.index db'.index) (he : db'.signalled = db.signalled) :
    db'.Tracked := by
  obtain ⟨base, num, hr, hl⟩ := ht.rooted
  exact ⟨he ▸ ht.linked, base, num, hr.sameShape hs, he ▸ hl⟩

lemma Tracked.parentsKept (ht : db.Tracked) (hs : Index.ParentsKept db.index db'.index)
    (he : db'.signalled = db.signalled) : db'.Tracked := by
  obtain ⟨base, num, hr, hl⟩ := ht.rooted
  exact ⟨he ▸ ht.linked, base, num, hr.parentsKept hs, he ▸ hl⟩

lemma Tracked.signal (ht : db.Tracked) (hr : db'.index.Rooted h.id (h.blockNum + 1))
    (hmin : ∀ t ∈ db.index.rows, h.blockNum ≤ t.blockNum) (hs : h ∈ db.index.rows)
    (he : db'.signalled = db.signalled ++ [⟨h, db.index, db.head⟩]) : db'.Tracked := by
  obtain ⟨base, num, hroot, hl⟩ := ht.rooted
  obtain ⟨hprev, hnum⟩ := hroot.lowest hs hmin
  refine ⟨?_, h.id, h.blockNum + 1, hr, ?_⟩
  · rw [he]
    refine isChain_append.mpr ⟨ht.linked, isChain_singleton _, ?_⟩
    intro last hlast x hx
    cases hx
    obtain ⟨hbase, hbn⟩ := hl last hlast
    exact ⟨hprev.trans hbase, hnum.trans hbn⟩
  · intro sig hlast
    rw [he, getLast?_concat] at hlast
    cases hlast
    exact ⟨rfl, rfl⟩

lemma sameShape_kept (idx : Index) (signalled : List Signal) :
    KeptByFlags fun db => Index.SameShape idx db.index ∧ db.signalled = signalled where
  mark _ _ flag h := ⟨h.1.trans (.modify (mark_id flag) (fun _ => rfl) (fun _ => rfl)), h.2⟩
  validate _ _ h := ⟨h.1.trans (.modify validate_id (fun _ => rfl) (fun _ => rfl)), h.2⟩

lemma markInCurrentChain_spec (db : ForkDatabase) (h : BlockState) (flag : Bool) :
    Triple (· = db) (markInCurrentChain h flag)
      (fun _ db' => Index.SameShape db.index db'.index ∧ db'.signalled = db.signalled)
      (fun _ db' => Index.SameShape db.index db'.index ∧ db'.signalled = db.signalled ∧ db.getBlock h.id = none) := by
  refine ((markInCurrentChain_keeps (sameShape_kept _ _) h flag).of_eq ⟨.refl _, rfl⟩).conseq_eq (fun _ _ _ h => h) ?_
  rintro e db' hx ⟨hshape, hsig⟩
  refine ⟨hshape, hsig, ?_⟩
  by_contra hfound
  rw [markInCurrentChain] at hx
  split_ifs at hx with hflag
  · cases hx
  · rw [getBind_apply, require, if_pos hfound] at hx
    cases hx

lemma irreversible_spec (hr : Returns handler) (hs : s ∈ db.index.rows) :
    Triple (· = db) (irreversible handler s)
      (fun _ db' => Index.SameShape db.index db'.index ∧ db'.signalled = db.signalled ++ [⟨s, db.index, db.head⟩])
      (fun _ _ => False) := by
  obtain ⟨r, hr, hid⟩ := hr s
  refine .modifyBind ?_
  rw [hr]
  cases r with
  | none => exact .pure_eq ⟨.refl _, rfl⟩
  | some h =>
    refine .bind ((markInCurrentChain_spec _ h true).weaken ?_) fun _ => .getBind fun db' hdb' => ?_
    · rintro _ _ ⟨_, _, hnone⟩
      exact Index.find?_eq_none.mp hnone s hs (hid h rfl).symm
    · exact .modify_eq ((sameShape_kept _ _).validate db' h.id hdb')

lemma pruneLevel_spec (hret : Returns handler) (hr : db.index.Rooted base num) (hs : h ∈ db.index.rows)
    (hn : h.blockNum = num) :
    Triple (· = db) (pruneLevel handler h)
      (fun _ db' => db'.index.Rooted h.id (num + 1) ∧ db'.signalled = db.signalled ++ [⟨h, db.index, db.head⟩])
      (fun e _ => e.code = .undefinedBehavior) := by
  have hget : db.getBlock h.id = some h := Index.find?_eq_some.mpr ⟨hs, rfl⟩
  refine .bind (Q := fun _ db' => ∃ idx, Index.SameShape db.index idx ∧ db'.index = idx.erase h.id ∧
    db'.signalled = db.signalled ++ [⟨h, db.index, db.head⟩]) ?_ ?_
  · refine .getBind_eq ?_
    rw [hget]
    refine .bind ((irreversible_spec hret hs).weaken fun _ _ => False.elim) ?_
    intro _
    refine .getBind ?_
    rintro db' ⟨hshape, hsig⟩
    exact .modify_eq ⟨_, hshape, rfl, hsig⟩
  · intro _
    refine .getBind ?_
    rintro db' ⟨idx, hshape, hidx, hsig⟩
    refine (pruneSiblings_spec h.blockNum _ db' le_rfl).conseq (fun _ h => h) ?_ (fun _ _ he => he)
    rintro _ db'' ⟨hkept, hlevel, hsig'⟩
    obtain ⟨t, ht, hid, _, htn⟩ := hshape.mem hs
    rw [hidx, ← hid] at hkept
    rw [← hid]
    exact ⟨(hr.sameShape hshape).release ht (htn.trans hn) hkept (hn ▸ hlevel), hsig'.trans hsig⟩

lemma prune_spec (hret : Returns handler) (ht : db.Tracked) (hmin : ∀ t ∈ db.index.rows, h.blockNum ≤ t.blockNum)
    (hs : h ∈ db.index.rows) :
    Triple (· = db) (prune handler h)
      (fun _ db' => db'.Tracked ∧ db'.signalled = db.signalled ++ [⟨h, db.index, db.head⟩])
      (fun e _ => e.code = .undefinedBehavior) := by
  obtain ⟨base, num, hr, _⟩ := ht.rooted
  obtain ⟨_, hnum⟩ := hr.lowest hs hmin
  refine prune_rule hmin ((pruneLevel_spec hret hr hs hnum).conseq (fun _ h => h) ?_ fun _ _ h => h)
  rintro _ db' ⟨hr', hsig⟩
  rw [← hnum] at hr'
  exact ⟨ht.signal hr' hmin hs hsig, hsig⟩

def KeptUnless (db : ForkDatabase) (e : Thrown) (db' : ForkDatabase) : Prop :=
  e.code ≠ .undefinedBehavior → db'.Tracked ∧ db'.signalled = db.signalled

lemma add_spec (hret : Returns handler) (ht : db.Tracked) {p : BlockState} (hp : p ∈ db.index.rows) (hid : p.id = n.prev)
    (hn : n.blockNum = p.blockNum + 1) :
    Triple (· = db) (add handler n)
      (fun _ db' => db'.Tracked ∧ ∃ idx, db.index.insert n = some idx ∧ Announced idx db.signalled db'.signalled)
      (KeptUnless db) := by
  obtain ⟨base, num, hr, hl⟩ := ht.rooted
  refine add_rule (fun _ _ => ⟨ht, rfl⟩) (fun _ _ he hne => absurd he hne) ?_
  intro idx best hi hbest
  have ht' : Tracked { db with index := idx, head := some best.id } :=
    ⟨ht.linked, base, num, hr.insert hi hp hid hn, hl⟩
  refine ⟨fun hquiet => ⟨ht', idx, hi, best, hbest, .inl ⟨rfl, hquiet⟩⟩, fun oldest hold hlt => ?_⟩
  obtain ⟨hmem, hmin⟩ := Index.byBlockNum_head hold
  refine (prune_spec hret ht' (fun t h => numKey_le (hmin t h)) hmem).conseq (fun _ h => h) ?_ fun _ _ he hne => absurd he hne
  rintro _ db' ⟨htracked, hsig⟩
  exact ⟨htracked, idx, hi, best, hbest, .inr ⟨oldest, hold, hlt, hsig⟩⟩

lemma setValidity_spec (db : ForkDatabase) (h : BlockState) (valid : Bool) :
    Triple (· = db) (setValidity h valid)
      (fun _ db' => (Index.SameShape db.index db'.index ∨ Index.ParentsKept db.index db'.index) ∧
        db'.signalled = db.signalled)
      (fun e _ => e.code = .undefinedBehavior) := by
  refine setValidity_rule ((remove_spec db h.id).conseq (fun _ h => h) ?_ (fun _ _ h => h)) ?_ valid
  · rintro _ _ ⟨hidx, hsig⟩
    exact ⟨.inr (hidx ▸ db.index.removeBranch_parentsKept h.id), hsig⟩
  · exact ⟨.inl (.modify validate_id (fun _ => rfl) (fun _ => rfl)), rfl⟩

lemma addConfirmation_spec (db : ForkDatabase) (c : Crypto) (conf : HeaderConfirmation) :
    Triple (· = db) (addConfirmation c conf)
      (fun _ db' => Index.SameShape db.index db'.index ∧ db'.signalled = db.signalled) (fun _ => (· = db)) := by
  refine addConfirmation_rule (fun _ => rfl) fun b _ => ?_
  have hshape : Index.SameShape db.index (db.index.modify b.id (.confirm conf) (confirm_id conf)) :=
    .modify _ (fun _ => rfl) (fun _ => rfl)
  exact ⟨⟨hshape, rfl⟩, fun _ _ => ⟨hshape.trans (.setBftIrreversible _ b), rfl⟩⟩

end

section

variable {c : Crypto} {db db' : ForkDatabase} {op : Op}

def Stepped (c : Crypto) (db : ForkDatabase) (op : Op) (db' : ForkDatabase) : Prop :=
  db'.Tracked ∧ (db'.signalled = db.signalled ∧ (∀ n, ¬ Inserts c db op n) ∨
    ∃ n idx, Inserts c db op n ∧ db.index.insert n = some idx ∧ Announced idx db.signalled db'.signalled)

lemma Inserts.unique {n n' : BlockState} (h : Inserts c db op n) (h' : Inserts c db op n') : n = n' := by
  cases op with
  | add handler m => exact h.trans h'.symm
  | addBlock handler b trust =>
    obtain ⟨prior, hp, r, hr, rfl⟩ := h
    obtain ⟨prior', hp', r', hr', rfl⟩ := h'
    rw [hp] at hp'
    cases hp'
    rw [hr] at hr'
    cases hr'
    rfl
  | _ => exact h.elim

lemma addBlock_spec (ht : db.Tracked) {handler : Handler} (hret : Returns handler) {b : SignedBlockHeader} {trust : Bool} :
    Triple (· = db) (addBlock c handler b trust) (fun _ => Stepped c db (.addBlock handler b trust)) (KeptUnless db) := by
  refine addBlock_rule (fun _ _ => ⟨ht, rfl⟩) fun prior result hp hn => ?_
  obtain ⟨_, he, _⟩ := BlockHeaderState.next_extends hn
  refine (add_spec (n := { result with }) hret ht (Index.find?_eq_some.mp hp).1 he.previous.symm he.blockNum).conseq
    (fun _ h => h) ?_ fun _ _ h => h
  rintro _ db' ⟨ht', idx, hi, ha⟩
  exact ⟨ht', .inr ⟨_, idx, ⟨prior, hp, result, hn, rfl⟩, hi, ha⟩⟩

lemma exec_stepped (ht : db.Tracked) (ha : db.Admissible c op) (hd : Driven op) :
    Triple (· = db) (exec c op) (fun _ => Stepped c db op) (KeptUnless db) := by
  cases op with
  | add handler n =>
    obtain ⟨p, hp, hc⟩ := ha
    obtain ⟨_, _, he⟩ := hc.extends
    refine (add_spec hd ht hp he.previous.symm he.blockNum).conseq (fun _ h => h) ?_ fun _ _ h => h
    rintro _ db' ⟨ht', idx, hi, ha⟩
    exact ⟨ht', .inr ⟨n, idx, rfl, hi, ha⟩⟩
  | addBlock handler b trust => exact addBlock_spec ht hd
  | addConfirmation conf =>
    refine (addConfirmation_spec db c conf).conseq (fun _ h => h) ?_ ?_
    · exact fun _ _ h => ⟨ht.sameShape h.1 h.2, .inl ⟨h.2, fun _ => id⟩⟩
    · rintro _ _ rfl _
      exact ⟨ht, rfl⟩
  | remove id =>
    refine (remove_spec db id).conseq (fun _ h => h) ?_ (fun _ _ he hne => absurd he hne)
    rintro _ _ ⟨hidx, hsig⟩
    exact ⟨ht.parentsKept (hidx ▸ db.index.removeBranch_parentsKept id) hsig, .inl ⟨hsig, fun _ h => h⟩⟩
  | setValidity h valid =>
    refine (setValidity_spec db h valid).conseq (fun _ h => h) ?_ (fun _ _ he hne => absurd he hne)
    rintro _ _ ⟨hshape | hkept, hsig⟩
    · exact ⟨ht.sameShape hshape hsig, .inl ⟨hsig, fun _ => id⟩⟩
    · exact ⟨ht.parentsKept hkept hsig, .inl ⟨hsig, fun _ => id⟩⟩
  | prune handler h => exact hd.elim
  | markInCurrentChain h flag =>
    exact (markInCurrentChain_spec db h flag).conseq (fun _ h => h)
      (fun _ _ h => ⟨ht.sameShape h.1 h.2, .inl ⟨h.2, fun _ => id⟩⟩) fun _ _ h _ => ⟨ht.sameShape h.1 h.2.1, h.2.1⟩

lemma Stepped.follows_iff (h : Stepped c db op db') (hf : Follows db.signalled) (hd : Driven op) :
    Follows db'.signalled ↔ FollowsBest c db op := by
  obtain ⟨ht, ⟨hsig, hnone⟩ | ⟨n, idx, hn, hi, ha⟩⟩ := h
  · rw [hsig]
    exact iff_of_true hf ⟨hd, fun n _ hn => absurd hn (hnone n)⟩
  · have hbest := ha.best_iff hf.best
    constructor
    · intro hf'
      refine ⟨hd, fun n' idx' hn' hi' => ?_⟩
      rw [hn'.unique hn, hi] at hi'
      cases hi'
      exact hbest.mp hf'.best
    · intro hk
      exact ⟨ht.linked, hbest.mpr (hk.best n idx hn hi)⟩

lemma Run.follows {root : BlockState} (h : Run c (FollowsBest c) root db) : db.Tracked ∧ Follows db.signalled := by
  induction h with
  | start =>
    refine ⟨⟨.nil, root.prev, root.blockNum, ?_, fun _ h => by cases h⟩, .nil, fun _ h => by cases h⟩
    intro s hs
    rw [mem_singleton.mp hs]
    exact .inl ⟨rfl, rfl⟩
  | ok _ ha hk hx ih =>
    have hs := (exec_stepped ih.1 ha hk.driven).ok rfl hx
    exact ⟨hs.1, (hs.follows_iff ih.2 hk.driven).mpr hk⟩
  | error _ ha hk hne hx ih =>
    obtain ⟨ht, hsig⟩ := (exec_stepped ih.1 ha hk.driven).error rfl hx hne
    exact ⟨ht, hsig ▸ ih.2⟩

end

section

variable {idx : Index} {db : ForkDatabase} {keeps : ForkDatabase → Op → Prop}

def climbs (idx : Index) (root : BlockId) : ℕ → BlockId → Bool
  | 0, id => id = root
  | fuel + 1, id => id = root ∨ (idx.find? id).any (fun s => climbs idx root fuel s.prev)

lemma descends_of_climbs {root : BlockId} (fuel : ℕ) {id : BlockId} (h : climbs idx root fuel id = true) :
    idx.Descends root id := by
  induction fuel generalizing id with
  | zero =>
    obtain rfl := of_decide_eq_true h
    exact .self
  | succ fuel ih =>
    rcases of_decide_eq_true h with rfl | hup
    · exact .self
    · cases hf : idx.find? id with
      | none =>
        rw [hf] at hup
        cases hup
      | some s =>
        rw [hf] at hup
        obtain ⟨hs, rfl⟩ := Index.find?_eq_some.mp hf
        exact .child hs (ih hup)

def extended (c : Crypto) (db : ForkDatabase) (b : SignedBlockHeader) (trust : Bool) : Option Index :=
  (db.getBlock b.previous).bind fun prior =>
    (prior.next c b trust).toOption.bind fun r => db.index.insert { r with }

def blockAt (db : ForkDatabase) (header : SignedBlockHeader) : BlockState :=
  (db.getBlock (header.toBlockHeader.id slotCrypto)).getD default

def grow (p : BlockState) (slot : Slot) (db : ForkDatabase) : ForkDatabase :=
  after (exec slotCrypto (.addBlock quiet (childHeader p slot) false)) db

def markCurrent (header : SignedBlockHeader) (db : ForkDatabase) : ForkDatabase :=
  after (exec slotCrypto (.markInCurrentChain (blockAt db header) true)) db

lemma Run.grow (p : BlockState) (slot : Slot)
    (hr : Run slotCrypto keeps testRoot db) (hk : keeps db (.addBlock quiet (childHeader p slot) false))
    (h : returns (exec slotCrypto (.addBlock quiet (childHeader p slot) false)) db = true) :
    Run slotCrypto keeps testRoot (grow p slot db) :=
  .after _ hr trivial hk h

lemma Run.markCurrent (header : SignedBlockHeader)
    (hr : Run slotCrypto keeps testRoot db) (hk : keeps db (.markInCurrentChain (blockAt db header) true))
    (h : returns (exec slotCrypto (.markInCurrentChain (blockAt db header) true)) db = true) :
    Run slotCrypto keeps testRoot (markCurrent header db) :=
  .after _ hr trivial hk h

def forked : ForkDatabase := grow testRoot 2 (markCurrent (childHeader testRoot 1) (grow testRoot 1 (ofRoot testRoot)))

def upper : BlockState := blockAt forked (childHeader testRoot 1)

def lower : BlockState := blockAt forked (childHeader testRoot 2)

end

end ForkDatabase

end XosChain.Fork
