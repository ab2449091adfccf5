import XosChain.Controller.ForkSwitch

namespace XosChain.Controller

open Lib Header Fork Fork.Index List Sessions

variable {δ : Type} {sem : BlockSemantics δ} {d0 : δ} {base : BlockId} {num lib : ℕ}
  {c : State (Sessions δ)} {newHead : BlockState} {l : List BlockId}

def CanSwitch (c : State (Sessions δ)) (newHead : BlockState) : Prop :=
  newHead.prev = c.head.id ∨ newHead.id = c.head.id ∨
    ∃ branches p, c.forkDb.index.fetchBranchFrom newHead.id c.head.id = some branches ∧
      branches.2.getLast?.map (fun b => b.prev) = some p ∧ p ∈ c.forkDb.index.ids

lemma extendHead_spec (h : Consistent sem d0 base num lib c l) (hn : newHead ∈ c.forkDb.index.rows)
    (hp : newHead.prev = c.head.id) :
    Triple (· = c) (extendHead (applyBlock sem) newHead)
      (fun _ c' => c'.head.id = newHead.id ∧ ∃ l', Consistent sem d0 base num lib c' l')
      (fun e c' => c'.head.id = c.head.id ∧ Consistent sem d0 base num lib c' l ∧
        Rejects sem d0 c.forkDb.index c'.forkDb.index e) := by
  have hc : ChainTo c.forkDb.index newHead.id (newHead.id :: l) := .cons hn (hp ▸ h.chain)
  have hmem : newHead.id ∈ c.forkDb.index.ids := mem_ids_of_mem hn
  refine catchFc_spec (R := fun e c' => sem.apply newHead.id c.store.contents = .error e ∧ c' = c) ?_ ?_ ?_
  · refine .seq (applyBlock_spec c newHead) ?_
    rintro _ _ ⟨d, ha, rfl⟩
    have hpush := h.toPlaced.push ⟨newHead, hn, rfl, rfl⟩ hc ha
    refine .seq ((mark_spec (c := { c with store := c.store.push d }) hmem true).weaken fun _ _ h => h.elim) ?_
    rintro _ _ ⟨db, ⟨hm, _⟩, rfl⟩
    refine .seq ((validate_spec _ newHead (hm.set h.flags)).weaken fun _ _ h => h.elim) ?_
    rintro _ _ ⟨db', ⟨hs, hf⟩, rfl⟩
    exact .modify_eq ⟨rfl, newHead.id :: l, hpush.reshape (hm.shape.trans hs), hf⟩
  · intro e _
    refine .pointwise ?_
    intro c' hc'
    rw [hc'.2]
    refine .seq ((invalidate_spec hmem h (hc.not_mem_tail h.tree)).weaken fun _ _ h => h.elim) ?_
    rintro _ c'' ⟨hc'', hhead, hidx⟩
    refine .throw_eq ?_
    refine ⟨by rw [hhead], hc'', newHead.id, hmem, ⟨l, _, hc, h.synced.replay, hc'.1⟩, ?_⟩
    intro i
    rw [hidx]
    exact removeBranch_ids_iff i
  · rintro e _ hfc ⟨ha, _⟩
    exact absurd (sem.isFc_of_error ha) hfc

lemma Path.holds {idx : Index} {start stop : BlockId} {path : List BlockState} (h : idx.Path start path stop) :
    ∀ b ∈ path, Holds idx b := by
  induction path generalizing start with
  | nil => intro b hb; cases hb
  | cons a path ih =>
    intro b hb
    rcases mem_cons.mp hb with rfl | hb
    · exact ⟨b, h.1, rfl, rfl⟩
    · exact ih h.2.2 b hb

variable {first second : List BlockState}

lemma switchBranches_spec {stop : BlockId} (h : Consistent sem d0 base num lib c l)
    (hfirst : c.forkDb.index.Path newHead.id first stop) (hne : first ≠ [])
    (hsecond : c.forkDb.index.Path c.head.id second stop) (hne' : second ≠ []) (hstop : stop ∈ c.forkDb.index.ids) :
    Triple (· = c) (switchBranches undo (applyBlock sem) (first, second))
      (fun _ c' => c'.head.id = newHead.id ∧ ∃ l', Consistent sem d0 base num lib c' l')
      (fun e c' => c'.head.id = c.head.id ∧ Consistent sem d0 base num lib c' l ∧
        Rejects sem d0 c.forkDb.index c'.forkDb.index e) := by
  obtain ⟨p, hp, rfl⟩ := mem_ids.mp hstop
  obtain ⟨rest, hrest⟩ := h.tree.exists_chain hp
  have hr : rest ≠ [] := hrest.ne_nil hstop
  obtain rfl := h.chain.unique (hsecond.chain hrest)
  have hlast : second.getLast?.map (fun b => b.prev) = rest.head? := by
    obtain ⟨r, rfl, _⟩ := hrest.eq_cons hp
    exact hsecond.getLast hne'
  have ho : OldBranch sem d0 c.forkDb.index second rest :=
    ⟨⟨_, h.chain⟩, Path.holds hsecond, ⟨_, h.synced.replay⟩, hlast⟩
  refine .seq ((unwind_spec second hr h).weaken fun _ _ h => h.elim) ?_
  rintro _ c1 ⟨h1, hs⟩
  refine .seq ((requireHeadBelow_spec h1.toPlaced hlast _).weaken fun _ _ h => h.elim) ?_
  intro _ s hs'
  rw [hs']
  have hchain : ChainTo c1.forkDb.index newHead.id (blockIds first.reverse.reverse ++ (blockIds [] ++ rest)) := by
    rw [reverse_reverse]
    exact (hfirst.chain hrest).sameShape hs
  refine (applyBranch_spec first.reverse hr h1 (ho.sameShape hs) hchain
    (fun b hb => (Path.holds hfirst b (mem_reverse.mp hb)).sameShape hs)).conseq (fun _ h => h) ?_ ?_
  · intro _ c' hc'
    rw [reverse_reverse] at hc'
    refine ⟨?_, _, hc'⟩
    obtain ⟨b, first, rfl⟩ := exists_cons_of_ne_nil hne
    exact hc'.chain.head_eq.symm.trans hfirst.2.1
  · rintro e c' ⟨hc', hrej⟩
    refine ⟨?_, hc', hrej.sameShape hs⟩
    obtain ⟨b, second, rfl⟩ := exists_cons_of_ne_nil hne'
    exact hc'.chain.head_eq.symm.trans hsecond.2.1

lemma switchBranches_guard {stop : BlockId} (h : Consistent sem d0 base num lib c l)
    (hsecond : c.forkDb.index.Path c.head.id second stop) (hne : second ≠ []) (hstop : stop ∉ c.forkDb.index.ids) :
    Triple (· = c) (switchBranches undo (applyBlock sem) (first, second)) (fun _ _ => False)
      (fun e c' => e = popGuard ∧ Placed sem d0 base num c' [c'.head.id] ∧ FlagsExact lib c'.forkDb.index [] ∧
        c'.forkDb.index.ids = c.forkDb.index.ids) := by
  obtain rfl : l = blockIds second :=
    (h.chain.unique (hsecond.chain (.nil hstop))).trans (append_nil _)
  exact .seq (unwind_guard second hne h) (fun _ _ h => h.elim)

theorem maybeSwitchForks_outcome (h : Consistent sem d0 base num lib c l) (hn : newHead ∈ c.forkDb.index.rows)
    (hh : c.forkDb.head = some newHead.id) :
    Triple (· = c) (maybeSwitchForks undo (applyBlock sem))
      (fun _ c' => CanSwitch c newHead ∧ c'.head.id = newHead.id ∧ ∃ l', Consistent sem d0 base num lib c' l')
      (fun e c' =>
        CanSwitch c newHead ∧ c'.head.id = c.head.id ∧ Consistent sem d0 base num lib c' l ∧
          Rejects sem d0 c.forkDb.index c'.forkDb.index e ∨
        ¬ CanSwitch c newHead ∧ e = popGuard ∧ Placed sem d0 base num c' [c'.head.id] ∧
          FlagsExact lib c'.forkDb.index [] ∧ c'.forkDb.index.ids = c.forkDb.index.ids) := by
  refine .getBind_eq ?_
  have hget : c.forkDb.head.bind c.forkDb.getBlock = some newHead := by
    rw [hh]
    exact find?_eq_some.mpr ⟨hn, rfl⟩
  rw [hget]
  refine .getBind_eq ?_
  split_ifs with hp hne
  · have hcan : CanSwitch c newHead := .inl hp
    exact (extendHead_spec h hn hp).conseq (fun _ h => h) (fun _ _ h => ⟨hcan, h⟩) (fun _ _ h => .inl ⟨hcan, h⟩)
  · obtain ⟨s, hs, hid, _⟩ := h.held
    obtain ⟨first, second, stop, hfetch, ⟨hfirst, hne1⟩, hsecond, hne2⟩ := fetchBranchFrom_eq h.tree hn hs
    rw [hid] at hfetch hsecond
    rw [hfetch]
    by_cases hstop : stop ∈ c.forkDb.index.ids
    · have hcan : CanSwitch c newHead := .inr (.inr ⟨_, stop, hfetch, hsecond.getLast hne2, hstop⟩)
      exact (switchBranches_spec h hfirst hne1 hsecond hne2 hstop).conseq (fun _ h => h) (fun _ _ h => ⟨hcan, h⟩)
        (fun _ _ h => .inl ⟨hcan, h⟩)
    · have hcan : ¬ CanSwitch c newHead := by
        rintro (hp' | hid' | ⟨branches, p, hfetch', hlast, hmem⟩)
        · exact hp hp'
        · exact hne hid'
        · obtain rfl := Option.some.inj (hfetch.symm.trans hfetch')
          obtain rfl := Option.some.inj ((hsecond.getLast hne2).symm.trans hlast)
          exact hstop hmem
      exact (switchBranches_guard h hsecond hne2 hstop).conseq (fun _ h => h) (fun _ _ h => h.elim)
        (fun _ _ h => .inr ⟨hcan, h⟩)
  · refine .pure_eq ?_
    have hid := (not_ne_iff.mp hne).symm
    exact ⟨.inr (.inl hid.symm), hid, l, h⟩

section

def logSemantics : BlockSemantics (List BlockId) where
  apply i d := if i = 13 then .error ⟨.blockValidateException, "bad block"⟩ else .ok (i :: d)
  isFc_of_error h := by
    split_ifs at h
    cases h
    rfl

def node (id prev num dposIrreversible : ℕ) (flag : Bool) : BlockState :=
  { id := id
    blockNum := num
    dposIrreversibleBlocknum := dposIrreversible
    header := { previous := prev }
    inCurrentChain := flag }

def indexOf (blocks : List BlockState) : Index := blocks.foldl (fun idx b => (idx.insert b).getD idx) Index.empty

def twoForks : State (Sessions (List BlockId)) :=
  ⟨⟨indexOf [node 10 9 5 0 true, node 11 10 6 0 true, node 12 10 6 0 false, node 13 12 7 0 false], some 13, []⟩,
    node 11 10 6 0 true, ⟨6, [11, 10], [[10]]⟩⟩

lemma twoForks_consistent : Consistent logSemantics [] 9 5 5 twoForks [11, 10] where
  tree := ⟨by unfold Rooted; decide, by decide⟩
  chain := .cons (s := node 11 10 6 0 true) (by decide) (.cons (s := node 10 9 5 0 true) (by decide) (.nil (by decide)))
  held := ⟨node 11 10 6 0 true, by decide, rfl, rfl⟩
  synced := ⟨[10], [], rfl, rfl, rfl⟩
  flags := by unfold FlagsExact; decide

theorem twoForks_outcome :
    Triple (· = twoForks) (maybeSwitchForks undo (applyBlock logSemantics))
      (fun _ c' => CanSwitch twoForks (node 13 12 7 0 false) ∧ c'.head.id = 13 ∧
        ∃ l', Consistent logSemantics [] 9 5 5 c' l')
      (fun e c' =>
        CanSwitch twoForks (node 13 12 7 0 false) ∧ c'.head.id = 11 ∧ Consistent logSemantics [] 9 5 5 c' [11, 10] ∧
          Rejects logSemantics [] twoForks.forkDb.index c'.forkDb.index e ∨
        ¬ CanSwitch twoForks (node 13 12 7 0 false) ∧ e = popGuard ∧ Placed logSemantics [] 9 5 c' [c'.head.id] ∧
          FlagsExact 5 c'.forkDb.index [] ∧ c'.forkDb.index.ids = twoForks.forkDb.index.ids) :=
  maybeSwitchForks_outcome twoForks_consistent (by decide) rfl

def aboveRoot : State (Sessions (List BlockId)) :=
  ⟨⟨indexOf [node 10 9 5 1 true, node 11 10 6 0 true], some 10, []⟩, node 11 10 6 0 true, ⟨6, [11, 10], [[10]]⟩⟩

lemma aboveRoot_consistent : Consistent logSemantics [] 9 5 5 aboveRoot [11, 10] where
  tree := ⟨by unfold Rooted; decide, by decide⟩
  chain := .cons (s := node 11 10 6 0 true) (by decide) (.cons (s := node 10 9 5 1 true) (by decide) (.nil (by decide)))
  held := ⟨node 11 10 6 0 true, by decide, rfl, rfl⟩
  synced := ⟨[10], [], rfl, rfl, rfl⟩
  flags := by unfold FlagsExact; decide

theorem aboveRoot_loses_head :
    Consistent logSemantics [] 9 5 5 aboveRoot [11, 10] ∧ node 10 9 5 1 true ∈ aboveRoot.forkDb.index.rows ∧
      aboveRoot.forkDb.head = some 10 ∧
      ∃ e c', maybeSwitchForks undo (applyBlock logSemantics) aboveRoot = .error e c' ∧
        c'.head.id ≠ aboveRoot.head.id := by
  refine ⟨aboveRoot_consistent, by decide, rfl, popGuard, _, rfl, ?_⟩
  decide

end

end XosChain.Controller
