import XosChain.Controller.SwitchSteps

namespace XosChain.Controller

open Lib Header Fork Fork.Index List Sessions

variable {δ : Type} {sem : BlockSemantics δ} {d0 : δ} {base top : BlockId} {num lib : ℕ}
  {c : State (Sessions δ)} {b : BlockState} {l rest : List BlockId}

abbrev blockIds (branch : List BlockState) : List BlockId := branch.map (fun b => b.id)

section

lemma unwind_spec (path : List BlockState) (hr : rest ≠ []) (h : Consistent sem d0 base num lib c (blockIds path ++ rest)) :
    Triple (· = c) (unwind undo path)
      (fun _ c' => Consistent sem d0 base num lib c' rest ∧ SameShape c.forkDb.index c'.forkDb.index)
      (fun _ _ => False) := by
  induction path generalizing c with
  | nil => exact .pure_eq ⟨h, .refl _⟩
  | cons b path ih =>
    have hmem : b.id ∈ c.forkDb.index.ids := h.chain.mem_ids mem_cons_self
    obtain ⟨j, l, hl⟩ : ∃ j l, blockIds path ++ rest = j :: l :=
      exists_cons_of_ne_nil (append_ne_nil_of_right_ne_nil _ hr)
    refine .seq (mark_spec hmem false) ?_
    rintro _ _ ⟨db, ⟨hm, _⟩, rfl⟩
    have hp : Placed sem d0 base num { c with forkDb := db } (b.id :: j :: l) := hl ▸ h.toPlaced.reshape hm.shape
    have hf := hm.clear h.flags (h.chain.not_mem_tail h.tree)
    refine .seq (popBlock_spec hp) ?_
    rintro _ c' ⟨hp', hdb⟩
    have hc' : Consistent sem d0 base num lib c' (blockIds path ++ rest) := ⟨hl ▸ hp', hdb ▸ hf⟩
    refine (ih hc').conseq (fun _ h => h) ?_ (fun _ _ h => h)
    rintro _ c'' ⟨hc'', hs⟩
    rw [hdb] at hs
    exact ⟨hc'', hm.shape.trans hs⟩

lemma unwind_guard (path : List BlockState) (hne : path ≠ []) (h : Consistent sem d0 base num lib c (blockIds path)) :
    Triple (· = c) (unwind undo path) (fun _ _ => False)
      (fun e c' => e = popGuard ∧ Placed sem d0 base num c' [c'.head.id] ∧ FlagsExact lib c'.forkDb.index [] ∧
        c'.forkDb.index.ids = c.forkDb.index.ids) := by
  induction path generalizing c with
  | nil => exact absurd rfl hne
  | cons b path ih =>
    have hmem : b.id ∈ c.forkDb.index.ids := h.chain.mem_ids mem_cons_self
    refine .seq ((mark_spec hmem false).weaken fun _ _ h => h.elim) ?_
    rintro _ _ ⟨db, ⟨hm, _⟩, rfl⟩
    have hf := hm.clear h.flags (h.chain.not_mem_tail h.tree)
    cases path with
    | nil =>
      have hp : Placed sem d0 base num { c with forkDb := db } [b.id] := h.toPlaced.reshape hm.shape
      refine .seq (Q := fun _ _ => False) ?_ (fun _ _ h => h.elim)
      intro s hs
      rw [hs, popBlock_guard hp]
      exact ⟨rfl, hp.chain.head_eq ▸ hp, hf, hm.shape.ids_eq⟩
    | cons b' path =>
      have hp : Placed sem d0 base num { c with forkDb := db } (b.id :: b'.id :: blockIds path) :=
        h.toPlaced.reshape hm.shape
      refine .seq ((popBlock_spec hp).weaken fun _ _ h => h.elim) ?_
      rintro _ c' ⟨hp', hdb⟩
      have hc' : Consistent sem d0 base num lib c' (blockIds (b' :: path)) := ⟨hp', hdb ▸ hf⟩
      refine (ih (cons_ne_nil _ _) hc').weaken ?_
      rintro _ c'' ⟨he, hp'', hf', hids⟩
      rw [hdb] at hids
      exact ⟨he, hp'', hf', hids.trans hm.shape.ids_eq⟩

lemma applyNext_spec (h : Consistent sem d0 base num lib c l) (hb : Holds c.forkDb.index b)
    (hc : ChainTo c.forkDb.index b.id (b.id :: l)) :
    Triple (· = c) (applyNext (applyBlock sem) b)
      (fun _ c' => Consistent sem d0 base num lib c' (b.id :: l) ∧ SameShape c.forkDb.index c'.forkDb.index ∧ c'.head = b)
      (fun e c' => sem.apply b.id c.store.contents = .error e ∧ c' = c) := by
  refine .seq (applyBlock_spec c b) ?_
  rintro _ _ ⟨d, ha, rfl⟩
  refine .modifyBind ?_
  have hp := h.toPlaced.push hb hc ha
  refine (mark_spec (c := ⟨c.forkDb, b, c.store.push d⟩) hb.mem_ids true).conseq (fun _ h => h) ?_ (fun _ _ h => h.elim)
  rintro _ _ ⟨db, ⟨hm, _⟩, rfl⟩
  exact ⟨⟨hp.reshape hm.shape, hm.set h.flags⟩, hm.shape, rfl⟩

lemma reapply_spec (todo : List BlockState) (h : Consistent sem d0 base num lib c l)
    (hc : ChainTo c.forkDb.index top (blockIds todo.reverse ++ l)) (hh : ∀ b ∈ todo, Holds c.forkDb.index b)
    {d : δ} (hr : replay sem d0 (blockIds todo.reverse ++ l) = .ok d) :
    Triple (· = c) (reapply (applyBlock sem) todo)
      (fun _ c' => Consistent sem d0 base num lib c' (blockIds todo.reverse ++ l) ∧
        SameShape c.forkDb.index c'.forkDb.index) (fun _ _ => False) := by
  induction todo generalizing c l with
  | nil => exact .pure_eq ⟨h, .refl _⟩
  | cons b todo ih =>
    have hl : blockIds (b :: todo).reverse ++ l = blockIds todo.reverse ++ b.id :: l := by simp
    rw [hl] at hc hr ⊢
    obtain ⟨d', hr'⟩ := replay_of_append hr
    obtain ⟨d'', hl', ha⟩ := bind_ok hr'
    obtain rfl : c.store.contents = d'' := Except.ok.inj (h.synced.replay.symm.trans hl')
    refine .seq ((applyNext_spec h (hh b mem_cons_self) hc.of_append).weaken ?_) ?_
    · rintro e _ ⟨he, _⟩
      rw [ha] at he
      cases he
    · rintro _ c' ⟨hc', hs, _⟩
      refine (ih hc' (hc.sameShape hs) (fun b hb => (hh b (mem_cons_of_mem _ hb)).sameShape hs) hr).conseq
        (fun _ h => h) ?_ (fun _ _ h => h)
      rintro _ c'' ⟨hc'', hs'⟩
      exact ⟨hc'', hs.trans hs'⟩

lemma invalidate_spec (hx : b.id ∈ c.forkDb.index.ids) (h : Consistent sem d0 base num lib c l) (hn : b.id ∉ l) :
    Triple (· = c) (setValidity b false)
      (fun _ c' => Consistent sem d0 base num lib c' l ∧ c'.head = c.head ∧
        c'.forkDb.index = c.forkDb.index.removeBranch b.id) (fun _ _ => False) := by
  have hkept : ∀ db : ForkDatabase, db.index = c.forkDb.index.removeBranch b.id →
      Consistent sem d0 base num lib { c with forkDb := db } l := by
    intro db hdb
    exact ⟨h.toPlaced.removeBranch hx hn hdb, hdb ▸ h.flags.removeBranch b.id⟩
  have hne : (c.forkDb.index.removeBranch b.id).byLibBlockNum.head? ≠ none := by
    intro he
    obtain ⟨s, hs, _⟩ := (hkept { c.forkDb with index := c.forkDb.index.removeBranch b.id } rfl).held
    have hs' := (c.forkDb.index.removeBranch b.id).lib_perm.mem_iff.mpr hs
    rw [head?_eq_none_iff.mp he] at hs'
    cases hs'
  refine (onForkDb_spec (Q := fun _ db => db.index = c.forkDb.index.removeBranch b.id) (R := fun _ _ => False) ?_).conseq
    (fun _ h => h) ?_ (fun _ _ ⟨_, h, _⟩ => h)
  · refine .getBind_eq (.modifyBind ?_)
    refine .getBind_eq ?_
    obtain ⟨t, ht⟩ := Option.ne_none_iff_exists'.mp hne
    rw [ht]
    exact .modify_eq rfl
  · rintro _ _ ⟨db, hdb, rfl⟩
    exact ⟨hkept db hdb, rfl, hdb⟩

end

def FailsAt (sem : BlockSemantics δ) (d0 : δ) (idx : Index) (x : BlockId) (e : Thrown) : Prop :=
  ∃ below d, ChainTo idx x (x :: below) ∧ replay sem d0 below = .ok d ∧ sem.apply x d = .error e

def Rejects (sem : BlockSemantics δ) (d0 : δ) (idx idx' : Index) (e : Thrown) : Prop :=
  ∃ x ∈ idx.ids, FailsAt sem d0 idx x e ∧ ∀ i, i ∈ idx'.ids ↔ i ∈ idx.ids ∧ ¬ Descends idx x i

structure OldBranch (sem : BlockSemantics δ) (d0 : δ) (idx : Index) (old : List BlockState) (rest : List BlockId) :
    Prop where
  chain : ∃ top, ChainTo idx top (blockIds old ++ rest)
  held : ∀ b ∈ old, Holds idx b
  replays : ∃ d, replay sem d0 (blockIds old ++ rest) = .ok d
  last : old.getLast?.map (fun b => b.prev) = rest.head?

section

variable {idx idx' idx'' : Index} {old applied : List BlockState} {x : BlockId} {e : Thrown}

lemma Rejects.sameShape (h : Rejects sem d0 idx idx' e) (hs : SameShape idx'' idx) : Rejects sem d0 idx'' idx' e := by
  obtain ⟨x, hx, ⟨below, d, hc, hr, ha⟩, hids⟩ := h
  refine ⟨x, hs.ids_eq ▸ hx, ⟨below, d, hc.sameShape hs.symm, hr, ha⟩, ?_⟩
  intro i
  rw [hids i, hs.ids_eq, not_congr (Iff.intro (Descends.sameShape hs.symm) (Descends.sameShape hs))]

lemma OldBranch.sameShape (h : OldBranch sem d0 idx old rest) (hs : SameShape idx idx') :
    OldBranch sem d0 idx' old rest := by
  obtain ⟨top, hc⟩ := h.chain
  exact ⟨⟨top, hc.sameShape hs⟩, fun b hb => (h.held b hb).sameShape hs, h.replays, h.last⟩

lemma OldBranch.not_mem (h : OldBranch sem d0 idx old rest) (hf : FailsAt sem d0 idx x e) : x ∉ blockIds old ++ rest := by
  intro hx
  obtain ⟨top, hc⟩ := h.chain
  obtain ⟨d, hr⟩ := h.replays
  obtain ⟨below, d', hc', hr', ha⟩ := hf
  obtain ⟨above, below', he⟩ := append_of_mem hx
  rw [he] at hc hr
  obtain rfl := (List.cons.inj (hc.of_append.unique hc')).2
  obtain ⟨d'', hd⟩ := replay_of_append hr
  obtain ⟨d1, hd1, ha1⟩ := bind_ok hd
  obtain rfl : d' = d1 := Except.ok.inj (hr'.symm.trans hd1)
  rw [ha] at ha1
  cases ha1

lemma OldBranch.removeBranch (h : OldBranch sem d0 idx old rest) (hx : x ∈ idx.ids) (hf : FailsAt sem d0 idx x e) :
    OldBranch sem d0 (idx.removeBranch x) old rest := by
  obtain ⟨top, hc⟩ := h.chain
  have hn := h.not_mem hf
  refine ⟨⟨top, hc.removeBranch hx hn⟩, ?_, h.replays, h.last⟩
  intro b hb
  obtain ⟨s, hs, hid, hprev⟩ := h.held b hb
  obtain ⟨above, below, he⟩ := append_of_mem (mem_append_left rest (mem_map_of_mem hb))
  rw [he] at hc hn
  refine ⟨s, mem_removeBranch.mpr ⟨hs, fun hd => hn ?_⟩, hid, hprev⟩
  exact mem_append_right _ (hc.of_append.mem_of_descends hx (hid ▸ hd))

lemma requireHeadBelow_spec (h : Placed sem d0 base num c rest) (hl : old.getLast?.map (fun b => b.prev) = rest.head?)
    (what : String) : Triple (· = c) (requireHeadBelow old what) (fun _ c' => c' = c) (fun _ _ => False) := by
  refine .getBind_eq ?_
  have hhead : rest.head? = some c.head.id := by
    obtain ⟨j, r, rfl⟩ := exists_cons_of_ne_nil h.ne_nil
    exact congrArg some h.chain.head_eq
  rw [if_pos (hl.trans hhead)]
  exact .pure _ (fun _ h => h)

lemma revert_spec (hr : rest ≠ []) (h : Consistent sem d0 base num lib c (blockIds applied ++ rest))
    (ho : OldBranch sem d0 c.forkDb.index old rest)
    (hc : ChainTo c.forkDb.index b.id (b.id :: (blockIds applied ++ rest)))
    (ha : sem.apply b.id c.store.contents = .error e) :
    Triple (· = c) (revert undo (applyBlock sem) old applied b e) (fun _ _ => False)
      (fun e' c' => e' = e ∧ Consistent sem d0 base num lib c' (blockIds old ++ rest) ∧
        Rejects sem d0 c.forkDb.index c'.forkDb.index e) := by
  have hx : b.id ∈ c.forkDb.index.ids := hc.mem_ids mem_cons_self
  have hf : FailsAt sem d0 c.forkDb.index b.id e := ⟨_, _, hc, h.synced.replay, ha⟩
  refine .seq ((invalidate_spec hx h (hc.not_mem_tail h.tree)).weaken fun _ _ h => h.elim) ?_
  rintro _ c1 ⟨h1, _, hidx⟩
  refine .seq ((unwind_spec applied hr h1).weaken fun _ _ h => h.elim) ?_
  rintro _ c2 ⟨h2, hs2⟩
  have ho2 : OldBranch sem d0 c2.forkDb.index old rest := (hidx ▸ ho.removeBranch hx hf).sameShape hs2
  refine .seq ((requireHeadBelow_spec h2.toPlaced ho2.last _).weaken fun _ _ h => h.elim) ?_
  intro _ s hs
  rw [hs]
  obtain ⟨top, hold⟩ := ho2.chain
  obtain ⟨d, hreplay⟩ := ho2.replays
  have hheld : ∀ b ∈ old.reverse, Holds c2.forkDb.index b := fun b hb => ho2.held b (mem_reverse.mp hb)
  rw [← reverse_reverse old] at hold hreplay
  refine .seq ((reapply_spec old.reverse h2 hold hheld hreplay).weaken fun _ _ h => h.elim) ?_
  rintro _ c3 ⟨h3, hs3⟩
  rw [reverse_reverse] at h3
  refine .throw_eq ?_
  refine ⟨rfl, h3, b.id, hx, hf, ?_⟩
  intro i
  rw [(hs2.trans hs3).ids_eq, hidx]
  exact removeBranch_ids_iff i

lemma advance_spec (h : Consistent sem d0 base num lib c l) (hb : Holds c.forkDb.index b)
    (hc : ChainTo c.forkDb.index b.id (b.id :: l)) :
    Triple (· = c) (advance (applyBlock sem) b)
      (fun _ c' => Consistent sem d0 base num lib c' (b.id :: l) ∧ SameShape c.forkDb.index c'.forkDb.index)
      (fun e c' => sem.apply b.id c.store.contents = .error e ∧ c' = c) := by
  refine .seq (applyNext_spec h hb hc) ?_
  rintro _ c' ⟨hc', hs, _⟩
  refine (validate_spec c' b hc'.flags).conseq (fun _ h => h) ?_ (fun _ _ h => h.elim)
  rintro _ _ ⟨db, ⟨hs', hf⟩, rfl⟩
  exact ⟨⟨hc'.toPlaced.reshape hs', hf⟩, hs.trans hs'⟩

lemma applyBranch_spec (todo : List BlockState) (hr : rest ≠ [])
    (h : Consistent sem d0 base num lib c (blockIds applied ++ rest)) (ho : OldBranch sem d0 c.forkDb.index old rest)
    (hc : ChainTo c.forkDb.index top (blockIds todo.reverse ++ (blockIds applied ++ rest)))
    (hh : ∀ b ∈ todo, Holds c.forkDb.index b) :
    Triple (· = c) (applyBranch undo (applyBlock sem) old applied todo)
      (fun _ c' => Consistent sem d0 base num lib c' (blockIds todo.reverse ++ (blockIds applied ++ rest)))
      (fun e c' => Consistent sem d0 base num lib c' (blockIds old ++ rest) ∧
        Rejects sem d0 c.forkDb.index c'.forkDb.index e) := by
  induction todo generalizing c applied with
  | nil => exact .pure_eq h
  | cons b todo ih =>
    have hl : blockIds (b :: todo).reverse ++ (blockIds applied ++ rest) =
        blockIds todo.reverse ++ (blockIds (b :: applied) ++ rest) := by simp
    rw [hl] at hc ⊢
    have hchain : ChainTo c.forkDb.index b.id (b.id :: (blockIds applied ++ rest)) := hc.of_append
    refine .seq (catchFc_spec (advance_spec h (hh b mem_cons_self) hchain) ?_ ?_) ?_
    · intro e _
      refine .pointwise ?_
      intro c' hc'
      rw [hc'.2]
      refine (revert_spec hr h ho hchain hc'.1).conseq (fun _ h => h) (fun _ _ h => h.elim) ?_
      rintro _ _ ⟨rfl, hcons, hrej⟩
      exact ⟨hcons, hrej⟩
    · rintro e _ hfc ⟨ha, _⟩
      exact absurd (sem.isFc_of_error ha) hfc
    · rintro _ c' ⟨hc', hs⟩
      refine (ih hc' (ho.sameShape hs) (hc.sameShape hs)
        (fun b hb => (hh b (mem_cons_of_mem _ hb)).sameShape hs)).weaken ?_
      rintro e c'' ⟨hcons, hrej⟩
      exact ⟨hcons, hrej.sameShape hs⟩

end

end XosChain.Controller
