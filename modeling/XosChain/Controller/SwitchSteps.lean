import XosChain.Controller.Sessions

namespace XosChain.Controller

open Lib Header Fork Fork.Index BlockState List

def FlagsExact (lib : ℕ) (idx : Index) (l : List BlockId) : Prop :=
  ∀ s ∈ idx.rows, lib < s.blockNum → (s.inCurrentChain = true ↔ s.id ∈ l)

structure Marked (idx idx' : Index) (id : BlockId) (flag : Bool) : Prop where
  shape : SameShape idx idx'
  flags : ∀ t ∈ idx'.rows, ∃ s ∈ idx.rows, s.id = t.id ∧ s.blockNum = t.blockNum ∧
    t.inCurrentChain = if t.id = id then flag else s.inCurrentChain

def Holds (idx : Index) (b : BlockState) : Prop := ∃ s ∈ idx.rows, s.id = b.id ∧ s.prev = b.prev

section

variable {idx idx' : Index} {lib : ℕ} {id : BlockId} {flag : Bool} {l : List BlockId} {b s : BlockState}

lemma Holds.mem_ids (h : Holds idx b) : b.id ∈ idx.ids := by
  obtain ⟨s, hs, hid, _⟩ := h
  exact hid ▸ mem_ids_of_mem hs

lemma Holds.sameShape (h : Holds idx b) (hs : SameShape idx idx') : Holds idx' b := by
  obtain ⟨s, hmem, hid, hprev⟩ := h
  obtain ⟨t, ht, hid', hprev', _⟩ := hs.mem hmem
  exact ⟨t, ht, hid'.trans hid, hprev'.trans hprev⟩

lemma Holds.chain (h : Holds idx b) (hc : ChainTo idx b.id (b.id :: l)) : ChainTo idx b.prev l := by
  obtain ⟨s, hs, hid, hprev⟩ := h
  rw [← hid] at hc
  obtain ⟨r, he, hr⟩ := hc.eq_cons hs
  rw [(cons.inj he).2, ← hprev]
  exact hr

lemma Marked.set (h : Marked idx idx' id true) (hf : FlagsExact lib idx l) : FlagsExact lib idx' (id :: l) := by
  intro t ht hlib
  obtain ⟨s, hs, hid, hnum, he⟩ := h.flags t ht
  rw [he, mem_cons]
  split_ifs with hi
  · simp [hi]
  · rw [hf s hs (hnum ▸ hlib), hid, or_iff_right hi]

lemma Marked.clear (h : Marked idx idx' id false) (hf : FlagsExact lib idx (id :: l)) (hn : id ∉ l) :
    FlagsExact lib idx' l := by
  intro t ht hlib
  obtain ⟨s, hs, hid, hnum, he⟩ := h.flags t ht
  rw [he]
  split_ifs with hi
  · simp [hi, hn]
  · rw [hf s hs (hnum ▸ hlib), hid, mem_cons, or_iff_right hi]

lemma FlagsExact.removeBranch (hf : FlagsExact lib idx l) (x : BlockId) : FlagsExact lib (idx.removeBranch x) l :=
  fun s hs => hf s (mem_removeBranch.mp hs).1

lemma marked_of_mark (idx : Index) (id : BlockId) (flag : Bool) :
    Marked idx (idx.modify id (.mark flag) (mark_id flag)) id flag where
  shape := .modify (mark_id flag) (fun _ => rfl) (fun _ => rfl)
  flags t ht := by
    obtain ⟨r, hr, rfl⟩ := (mem_modify _).mp ht
    refine ⟨r, hr, ?_⟩
    split_ifs with hi hi'
    · exact ⟨rfl, rfl, rfl⟩
    · exact absurd hi hi'
    · exact ⟨rfl, rfl, rfl⟩

lemma marked_of_same (hs : s ∈ idx.rows) : Marked idx idx s.id s.inCurrentChain where
  shape := .refl idx
  flags t ht := by
    refine ⟨t, ht, rfl, rfl, ?_⟩
    split_ifs with hi
    · rw [eq_of_id ht hs hi]
    · rfl

lemma markFlag_spec (db : ForkDatabase) (hs : s ∈ db.index.rows) (flag : Bool) :
    Triple (· = db) (ForkDatabase.markInCurrentChain s flag)
      (fun _ db' => Marked db.index db'.index s.id flag ∧ db'.head = db.head) (fun _ _ => False) := by
  rw [ForkDatabase.markInCurrentChain]
  split_ifs with he
  · exact .pure_eq ⟨he ▸ marked_of_same hs, rfl⟩
  · have hget : db.getBlock s.id ≠ none := by
      rw [show db.getBlock s.id = some s from find?_eq_some.mpr ⟨hs, rfl⟩]
      exact Option.some_ne_none s
    refine .getBind_eq ?_
    rw [Fork.require, if_pos hget]
    refine .bind (Q := fun _ => (· = db)) (Triple.pure _ (fun _ h => h)) ?_
    intro _
    exact .modify_eq ⟨marked_of_mark _ s.id flag, rfl⟩

lemma mark_spec {σ : Type} {c : State σ} {b : BlockState} (hb : b.id ∈ c.forkDb.index.ids) (flag : Bool) :
    Triple (· = c) (markInCurrentChain b flag)
      (fun _ c' => ∃ db, (Marked c.forkDb.index db.index b.id flag ∧ db.head = c.forkDb.head) ∧
        c' = { c with forkDb := db }) (fun _ _ => False) := by
  obtain ⟨s, hs, hid⟩ := mem_ids.mp hb
  have hget : c.forkDb.getBlock b.id = some s := find?_eq_some.mpr ⟨hs, hid⟩
  refine .getBind_eq ?_
  rw [hget, Option.getD_some, ← hid]
  exact (onForkDb_spec (markFlag_spec c.forkDb hs flag)).weaken (fun _ _ ⟨_, h, _⟩ => h)

lemma validate_spec {σ : Type} (c : State σ) (b : BlockState) (hf : FlagsExact lib c.forkDb.index l) :
    Triple (· = c) (setValidity b true)
      (fun _ c' => ∃ db, (SameShape c.forkDb.index db.index ∧ FlagsExact lib db.index l) ∧ c' = { c with forkDb := db })
      (fun _ _ => False) := by
  refine (onForkDb_spec (Q := fun _ db => SameShape c.forkDb.index db.index ∧ FlagsExact lib db.index l)
    (R := fun _ _ => False) ?_).weaken (fun _ _ ⟨_, h, _⟩ => h)
  refine .getBind_eq (.modify_eq ?_)
  refine ⟨.modify validate_id (fun _ => rfl) (fun _ => rfl), ?_⟩
  intro t ht
  obtain ⟨s, hs, rfl⟩ := (mem_modify validate_id).mp ht
  split_ifs
  · exact hf s hs
  · exact hf s hs

end

section

variable {δ : Type} {sem : BlockSemantics δ} {d0 : δ} {base : BlockId} {num lib : ℕ}
  {c : State (Sessions δ)} {b : BlockState} {i j : BlockId} {l : List BlockId}

structure Placed (sem : BlockSemantics δ) (d0 : δ) (base : BlockId) (num : ℕ) (c : State (Sessions δ))
    (l : List BlockId) : Prop where
  tree : c.forkDb.index.Tree base num
  chain : ChainTo c.forkDb.index c.head.id l
  held : Holds c.forkDb.index c.head
  synced : Synced sem d0 l c.store

structure Consistent (sem : BlockSemantics δ) (d0 : δ) (base : BlockId) (num lib : ℕ) (c : State (Sessions δ))
    (l : List BlockId) : Prop extends Placed sem d0 base num c l where
  flags : FlagsExact lib c.forkDb.index l

lemma Placed.ne_nil (h : Placed sem d0 base num c l) : l ≠ [] := h.chain.ne_nil h.held.mem_ids

lemma Placed.reshape (h : Placed sem d0 base num c l) {db : ForkDatabase} (hs : SameShape c.forkDb.index db.index) :
    Placed sem d0 base num { c with forkDb := db } l :=
  ⟨h.tree.sameShape hs, h.chain.sameShape hs, h.held.sameShape hs, h.synced⟩

lemma Placed.removeBranch (h : Placed sem d0 base num c l) {x : BlockId} (hx : x ∈ c.forkDb.index.ids) (hn : x ∉ l)
    {db : ForkDatabase} (hdb : db.index = c.forkDb.index.removeBranch x) :
    Placed sem d0 base num { c with forkDb := db } l := by
  have hchain := h.chain.removeBranch hx hn
  obtain ⟨s, hs, hid, hprev⟩ := h.held
  have hd : ¬ Descends c.forkDb.index x s.id := fun hd => hn (h.chain.mem_of_descends hx (hid ▸ hd))
  refine ⟨hdb ▸ h.tree.removeBranch x, hdb ▸ hchain, ⟨s, ?_, hid, hprev⟩, h.synced⟩
  rw [hdb]
  exact mem_removeBranch.mpr ⟨hs, hd⟩

lemma popBlock_spec (h : Placed sem d0 base num c (i :: j :: l)) :
    Triple (· = c) (popBlock Sessions.undo)
      (fun _ c' => Placed sem d0 base num c' (j :: l) ∧ c'.forkDb = c.forkDb) (fun _ _ => False) := by
  have hchain : ChainTo c.forkDb.index c.head.prev (j :: l) := h.held.chain (h.chain.head_eq ▸ h.chain)
  have hj := hchain.head_eq
  obtain ⟨p, hp, hid⟩ := mem_ids.mp (hchain.mem_ids mem_cons_self)
  have hget : c.forkDb.getBlock c.head.prev = some p := find?_eq_some.mpr ⟨hp, hid.trans hj⟩
  refine .getBind_eq (.getBind_eq ?_)
  rw [hget]
  exact .modify_eq ⟨⟨h.tree, (hid.trans hj).symm ▸ hchain, ⟨p, hp, rfl, rfl⟩, h.synced.undo⟩, rfl⟩

lemma popBlock_guard (h : Placed sem d0 base num c [i]) : popBlock Sessions.undo c = .error popGuard c := by
  have hchain : ChainTo c.forkDb.index c.head.prev [] := h.held.chain (h.chain.head_eq ▸ h.chain)
  have hget : c.forkDb.getBlock c.head.prev = none :=
    find?_eq_none.mpr fun s hs he => hchain.not_mem_of_nil (mem_ids.mpr ⟨s, hs, he⟩)
  rw [popBlock, getBind_apply, getBind_apply, hget]
  rfl

lemma applyBlock_spec (c : State (Sessions δ)) (b : BlockState) :
    Triple (· = c) (applyBlock sem b)
      (fun _ c' => ∃ d, sem.apply b.id c.store.contents = .ok d ∧ c' = { c with store := c.store.push d })
      (fun e c' => sem.apply b.id c.store.contents = .error e ∧ c' = c) := by
  refine .getBind_eq ?_
  cases ha : sem.apply b.id c.store.contents with
  | ok d => exact .modify_eq ⟨d, rfl, rfl⟩
  | error e => exact .throw_eq ⟨rfl, rfl⟩

lemma Placed.push (h : Placed sem d0 base num c l) (hb : Holds c.forkDb.index b)
    (hc : ChainTo c.forkDb.index b.id (b.id :: l)) {d : δ} (ha : sem.apply b.id c.store.contents = .ok d) :
    Placed sem d0 base num ⟨c.forkDb, b, c.store.push d⟩ (b.id :: l) :=
  ⟨h.tree, hc, hb, h.synced.push h.ne_nil ha⟩

end

end XosChain.Controller
