import XosChain.Fork.Signals

namespace XosChain.Fork

open Lib Header Index

namespace ForkDatabase

def AppliesNone (handler : Handler) : Prop := ∀ s b, handler s ≠ .ok (some b)

def Pruned (db : ForkDatabase) (h : BlockState) (db' : ForkDatabase) : Prop :=
  (∀ t ∈ db'.index.rows, t ∈ db.index.rows) ∧ db'.signalled = db.signalled ++ [⟨h, db.index, db.head⟩]

def Grown (db : ForkDatabase) (n : BlockState) (db' : ForkDatabase) : Prop :=
  (∀ t ∈ db'.index.rows, t ∈ db.index.rows ∨ t = n) ∧
    (db'.signalled = db.signalled ∨ ∃ sig, db'.signalled = db.signalled ++ [sig] ∧
      ∀ t, t ∈ db.index.rows ∨ t = n → sig.block.blockNum ≤ t.blockNum)

section

variable {db db' : ForkDatabase} {handler : Handler} {h n : BlockState} {c : Crypto}

lemma Grown.lowest (h : Grown db n db') : db'.signalled = db.signalled ∨ ∃ sig, db'.signalled = db.signalled ++ [sig] ∧
    ∀ t ∈ db'.index.rows, sig.block.blockNum ≤ t.blockNum := by
  obtain ⟨hsub, he | ⟨sig, he, hle⟩⟩ := h
  · exact .inl he
  · exact .inr ⟨sig, he, fun t ht => hle t (hsub t ht)⟩

lemma irreversible_pruned (ha : AppliesNone handler) (db : ForkDatabase) (h : BlockState) :
    Triple (· = db) (irreversible handler h)
      (fun _ db' => db' = { db with signalled := db.signalled ++ [⟨h, db.index, db.head⟩] })
      (fun _ => Pruned db h) := by
  refine .modifyBind ?_
  cases hs : handler h with
  | error e => exact .throw_eq ⟨fun _ ht => ht, rfl⟩
  | ok applied =>
    cases applied with
    | some b => exact absurd hs (ha h b)
    | none => exact .pure_eq rfl

lemma prune_pruned (ha : AppliesNone handler) (hs : h ∈ db.index.rows) (hmin : ∀ t ∈ db.index.rows, h.blockNum ≤ t.blockNum) :
    Triple (· = db) (prune handler h) (fun _ => Pruned db h) (fun e db' => e.code ≠ .undefinedBehavior → Pruned db h db') := by
  have hget : db.getBlock h.id = some h := find?_eq_some.mpr ⟨hs, rfl⟩
  refine prune_rule hmin (.seq (Q := fun _ => Pruned db h) ?_ ?_)
  · refine .getBind_eq ?_
    rw [hget]
    refine .seq ((irreversible_pruned ha db h).weaken fun _ _ hp _ => hp) ?_
    rintro _ _ rfl
    exact .getBind_eq (.modify_eq ⟨fun t ht => (mem_erase.mp ht).1, rfl⟩)
  · rintro _ db2 ⟨hsub, hsig⟩
    refine .getBind_eq ((pruneSiblings_spec _ _ db2 le_rfl).conseq (fun _ h => h) ?_ fun _ _ he hne => absurd he hne)
    rintro _ db3 ⟨hkept, _, hsig'⟩
    exact ⟨fun t ht => hsub t (hkept.sub t ht), hsig'.trans hsig⟩

lemma add_grown (ha : AppliesNone handler) (db : ForkDatabase) (n : BlockState) :
    Triple (· = db) (add handler n) (fun _ => Grown db n) (fun e db' => e.code ≠ .undefinedBehavior → Grown db n db') := by
  refine add_rule (fun _ _ => ⟨fun _ ht => .inl ht, .inl rfl⟩) (fun _ _ he hne => absurd he hne) fun idx best hi _ => ?_
  have hrows : ∀ t, t ∈ idx.rows ↔ t ∈ db.index.rows ∨ t = n := fun t => mem_insert hi
  refine ⟨fun _ => ⟨fun t => (hrows t).mp, .inl rfl⟩, fun oldest hold _ => ?_⟩
  obtain ⟨hmem, hmin⟩ := byBlockNum_head hold
  have hlow : ∀ t ∈ idx.rows, oldest.blockNum ≤ t.blockNum := fun t ht => numKey_le (hmin t ht)
  have hgrown : ∀ db', Pruned { db with index := idx, head := some best.id } oldest db' → Grown db n db' := by
    rintro db' ⟨hsub, hsig⟩
    exact ⟨fun t ht => (hrows t).mp (hsub t ht), .inr ⟨_, hsig, fun t ht => hlow t ((hrows t).mpr ht)⟩⟩
  exact (prune_pruned ha hmem hlow).conseq (fun _ h => h) (fun _ db' h => hgrown db' h) fun _ db' h hne => hgrown db' (h hne)

lemma addBlock_grown (ha : AppliesNone handler) (db : ForkDatabase) (b : SignedBlockHeader) (trust : Bool) :
    Triple (· = db) (addBlock c handler b trust)
      (fun _ db' => ∃ prior ∈ db.index.rows, ∃ r, prior.next c b trust = .ok r ∧ Grown db { r with } db')
      (fun e db' => e.code ≠ .undefinedBehavior → db' = db ∨
        ∃ prior ∈ db.index.rows, ∃ r, prior.next c b trust = .ok r ∧ Grown db { r with } db') := by
  refine addBlock_rule (fun _ _ => .inl rfl) fun prior r hp hn => ?_
  have hmem := (find?_eq_some.mp hp).1
  exact (add_grown ha db _).conseq (fun _ h => h) (fun _ _ h => ⟨prior, hmem, r, hn, h⟩)
    fun _ _ h hne => .inr ⟨prior, hmem, r, hn, h hne⟩

end

structure Leads (db : ForkDatabase) (n : BlockState) : Prop where
  outranks : ∀ t ∈ db.index.rows, t.rank < n.rank
  undisputed : ∀ idx, db.index.insert n = some idx → Undisputed idx

structure Leading (n : BlockState) (db : ForkDatabase) : Prop where
  mem : n ∈ db.index.rows
  outranks : ∀ t ∈ db.index.rows, t ≠ n → t.rank < n.rank
  head : db.head = some n.id

section

variable {db : ForkDatabase} {handler : Handler} {n oldest : BlockState} {num : BlockId → ℕ}

lemma best_of_outranks {idx : Index} {best : BlockState} (hn : n ∈ idx.rows) (ho : ∀ t ∈ idx.rows, t ≠ n → t.rank < n.rank)
    (hb : idx.byLibBlockNum.head? = some best) : best = n := by
  obtain ⟨hmem, hmax⟩ := byLibBlockNum_head hb
  by_contra hne
  exact absurd (hmax n hn) (not_le.mpr (ho best hmem hne))

lemma Leading.remove (h : Leading n db) {s : BlockState} (hs : ¬ db.index.Descends s.id n.id) :
    Triple (· = db) (remove s.id)
      (fun _ db' => Leading n db' ∧ ∀ t ∈ db'.index.rows, t ∈ db.index.rows) (fun e _ => e.code = .undefinedBehavior) := by
  have hsub : ∀ t ∈ (db.index.removeBranch s.id).rows, t ∈ db.index.rows := fun t ht => (mem_removeBranch.mp ht).1
  have hmem : n ∈ (db.index.removeBranch s.id).rows := mem_removeBranch.mpr ⟨h.mem, hs⟩
  have hout : ∀ t ∈ (db.index.removeBranch s.id).rows, t ≠ n → t.rank < n.rank := fun t ht => h.outranks t (hsub t ht)
  refine .getBind_eq (.modifyBind ((refreshHead_spec _).conseq (fun _ h => h) ?_ fun _ _ h => h))
  rintro _ _ ⟨best, hb, rfl⟩
  obtain rfl := best_of_outranks hmem hout hb
  exact ⟨⟨hmem, hout, rfl⟩, hsub⟩

lemma Leading.prune (ha : AppliesNone handler) (h : Leading n db) (hold : oldest ∈ db.index.rows) (hne : oldest ≠ n)
    (hmin : ∀ t ∈ db.index.rows, oldest.blockNum ≤ t.blockNum)
    (hside : ∀ t ∈ db.index.rows, t.blockNum = oldest.blockNum → t ≠ oldest → ¬ db.index.Descends t.id n.id) :
    Triple (· = db) (prune handler oldest) (fun _ => Leading n) (fun _ _ => True) := by
  have hget : db.getBlock oldest.id = some oldest := find?_eq_some.mpr ⟨hold, rfl⟩
  have hid : n.id ≠ oldest.id := fun he => hne (eq_of_id hold h.mem he.symm)
  refine prune_rule hmin (.seq (Q := fun _ db' => Leading n db' ∧ ∀ t ∈ db'.index.rows, t ∈ db.index.rows ∧ t ≠ oldest) ?_ ?_)
  · refine .getBind_eq ?_
    rw [hget]
    refine .seq ((irreversible_pruned ha db oldest).weaken fun _ _ _ => trivial) ?_
    rintro _ _ rfl
    refine .getBind_eq (.modify_eq ⟨⟨mem_erase.mpr ⟨h.mem, hid⟩, ?_, h.head⟩, ?_⟩)
    · exact fun t ht => h.outranks t (mem_erase.mp ht).1
    · intro t ht
      obtain ⟨ht, hti⟩ := mem_erase.mp ht
      exact ⟨ht, fun he => hti (congrArg (fun s => s.id) he)⟩
  · rintro _ db1 ⟨hl, hsub⟩
    refine .getBind_eq (((pruneSiblings_rule ?_ _).of_eq (P := fun db' => Leading n db' ∧
      ∀ t ∈ db'.index.rows, t ∈ db.index.rows ∧ t ≠ oldest) ⟨hl, hsub⟩).conseq (fun _ h => h) (fun _ _ h => h.1)
        fun _ _ _ => trivial)
    rintro db2 ⟨hl2, hsub2⟩ s hs hnum
    obtain ⟨hsdb, hsne⟩ := hsub2 s hs
    have hd : ¬ db2.index.Descends s.id n.id := fun hd =>
      hside s hsdb hnum hsne (hd.mono fun t ht => (hsub2 t ht).1)
    refine (hl2.remove hd).conseq (fun _ h => h) ?_ fun _ _ h => h
    rintro _ db3 ⟨hl3, hsub3⟩
    exact ⟨hl3, fun t ht => hsub2 t (hsub3 t ht)⟩

lemma add_leading (ha : AppliesNone handler) (h : db.Leads n) {p : BlockState} (hp : p ∈ db.index.rows)
    (hlow : p.blockNum < n.blockNum) (hname : ∀ t, t ∈ db.index.rows ∨ t = n → t.blockNum = num t.id)
    (hnum : ∀ t, t ∈ db.index.rows ∨ t = n → num t.id = num t.prev + 1) :
    Triple (· = db) (add handler n) (fun _ => Leading n) (fun _ _ => True) := by
  refine add_rule (fun _ => trivial) (fun _ _ _ => trivial) fun idx best hi hbest => ?_
  have hrows : ∀ t, t ∈ idx.rows ↔ t ∈ db.index.rows ∨ t = n := fun t => mem_insert hi
  have hn : n ∈ idx.rows := (hrows n).mpr (.inr rfl)
  have hout : ∀ t ∈ idx.rows, t ≠ n → t.rank < n.rank :=
    fun t ht hne => h.outranks t (((hrows t).mp ht).resolve_right hne)
  obtain rfl := best_of_outranks hn hout hbest
  have hl : Leading best { db with index := idx, head := some best.id } := ⟨hn, hout, rfl⟩
  refine ⟨fun _ => hl, fun oldest hold hlt => ?_⟩
  obtain ⟨hmem, hmin⟩ := byBlockNum_head hold
  have hmin : ∀ t ∈ idx.rows, oldest.blockNum ≤ t.blockNum := fun t ht => numKey_le (hmin t ht)
  have hd := undisputed_iff.mp (h.undisputed idx hi) best oldest hbest hold hlt
  refine hl.prune ha hmem ?_ hmin fun t ht hteq htne hdt => htne (eq_of_id ht hmem ?_)
  · rintro rfl
    exact absurd (hmin p ((hrows p).mpr (.inl hp))) (not_le.mpr hlow)
  · refine hdt.unique num (fun s hs => hnum s ((hrows s).mp hs)) hd ?_
    rw [← hname t ((hrows t).mp ht), ← hname oldest ((hrows oldest).mp hmem), hteq]

end

end ForkDatabase

end XosChain.Fork
