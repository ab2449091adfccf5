import XosChain.Controller.Apply
import XosChain.Controller.SwitchSteps

namespace XosChain.Controller

open Lib Header Fork List ForkDatabase Index

variable {δ τ : Type} {L : Ledger δ τ} {s s' : State (Store δ τ)} {c : Crypto} {b : BlockState}

def Ledger.Idle (L : Ledger δ τ) (s : State (Store δ τ)) : Prop := L.Good s ∧ s.store.pending = none

def Ledger.Failed (L : Ledger δ τ) (e : Thrown) (s : State (Store δ τ)) : Prop :=
  e.code ≠ .undefinedBehavior → L.Good s ∧ (e.isFc = true → s.store.pending = none)

lemma Ledger.Idle.failed (h : L.Idle s) (e : Thrown) : L.Failed e s := fun _ => ⟨h.1, fun _ => h.2⟩

lemma Ledger.Idle.reshape (h : L.Idle s) {db : ForkDatabase} (hs : SameShape s.forkDb.index db.index) :
    L.Idle { s with forkDb := db } := by
  refine ⟨⟨h.1.rows.sameShape hs, h.1.head, ?_⟩, h.2⟩
  exact h.1.agree

lemma Ledger.Idle.sub (h : L.Idle s) {db : ForkDatabase} (hs : ∀ t ∈ db.index.rows, t ∈ s.forkDb.index.rows) :
    L.Idle { s with forkDb := db } := by
  refine ⟨⟨h.1.rows.sub hs, h.1.head, ?_⟩, h.2⟩
  exact h.1.agree

lemma Applied.setHead (h : Applied L s b s') (hb : L.Named b) : L.Idle { s' with head := b } := by
  refine ⟨⟨h.rows, hb, ?_⟩, h.pending⟩
  simp only [Ledger.Agree, h.pending]
  exact h.position

section

variable (h : L.Idle s)

include h

lemma popBlock_idle : Triple (· = s) (popBlock undoStore) (fun _ => L.Idle) L.Failed := by
  obtain ⟨hg, hp⟩ := h
  refine .getBind_eq (.getBind_eq ?_)
  cases hget : s.forkDb.getBlock s.head.prev with
  | none => exact .throw_eq (Ledger.Idle.failed ⟨hg, hp⟩ _)
  | some prev =>
    obtain ⟨hmem, hid⟩ := find?_eq_some.mp hget
    have hat := hg.at hp
    have hn := hg.rows.named prev hmem
    have hrev : s.store.db.revision = L.num prev.id + 1 := by
      rw [hat.revision, hg.head.num, hid]
    have hu : s.store.db.undos ≠ [] := by
      intro hnil
      have hdeep := hg.rows.deep prev hmem
      rw [hnil, hrev, hn.blockNum, length_nil] at hdeep
      omega
    obtain ⟨d, undos, he⟩ := exists_cons_of_ne_nil hu
    have hbacked := hat.backed
    rw [he] at hbacked
    have hprev : L.prev s.head.id = prev.id := hg.head.prev.trans hid.symm
    refine .modify ?_
    intro t ht
    rw [ht]
    refine ⟨⟨hg.rows.undo, hn, ?_⟩, hp⟩
    simp only [Ledger.Agree, undoStore, hp, Sessions.undo, he]
    exact ⟨hprev ▸ hbacked.1, hprev ▸ hbacked.2, by rw [hrev, Nat.add_sub_cancel]⟩

lemma mark_idle (b : BlockState) (flag : Bool) :
    Triple (· = s) (markInCurrentChain b flag) (fun _ => L.Idle) L.Failed := by
  refine .getBind_eq ((onForkDb_spec (markInCurrentChain_spec s.forkDb _ flag)).conseq
    (fun _ h => h) ?_ ?_)
  · rintro _ _ ⟨db, ⟨hs, _⟩, rfl⟩
    exact h.reshape hs
  · rintro e _ ⟨db, ⟨hs, _⟩, rfl⟩
    exact (h.reshape hs).failed e

lemma setValidity_idle (b : BlockState) (valid : Bool) :
    Triple (· = s) (setValidity b valid) (fun _ => L.Idle) L.Failed := by
  refine (onForkDb_spec (setValidity_spec s.forkDb b valid)).conseq (fun _ h => h) ?_ ?_
  · rintro _ _ ⟨db, ⟨hs | hs, _⟩, rfl⟩
    · exact h.reshape hs
    · exact h.sub hs.sub
  · rintro e _ ⟨db, he, rfl⟩ hne
    exact absurd he hne

lemma unwind_idle (branch : List BlockState) :
    Triple (· = s) (unwind undoStore branch) (fun _ => L.Idle) L.Failed := by
  induction branch generalizing s with
  | nil => exact .pure_eq h
  | cons b branch ih =>
    refine .seq (mark_idle h b false) fun _ s1 h1 => ?_
    exact .seq (popBlock_idle h1) fun _ s2 h2 => ih h2

lemma requireHeadBelow_idle (branch : List BlockState) (what : String) :
    Triple (· = s) (requireHeadBelow branch what) (fun _ => L.Idle) L.Failed := by
  refine .getBind_eq ?_
  split_ifs
  · exact .pure_eq h
  · exact .throw_eq (h.failed _)

lemma applyBlockState_idle (hb : L.Named b) :
    Triple (· = s) (applyBlockState c L.execution L.toNames b) (fun _ => Applied L s b)
      (fun e s' => L.Good s' ∧ (e.isFc = true → s'.store.pending = none)) :=
  (applyBlockState_spec h.1 hb).weaken fun _ _ h => ⟨h.1, h.2.2⟩

lemma applyNext_idle (hb : L.Named b) :
    Triple (· = s) (applyNext (applyBlockState c L.execution L.toNames) b) (fun _ => L.Idle) L.Failed := by
  refine .seq ((applyBlockState_idle h hb).weaken fun _ _ h _ => h) fun _ s1 h1 => ?_
  exact .modifyBind (mark_idle (h1.setHead hb) b true)

lemma reapply_idle {branch : List BlockState} (hb : ∀ b ∈ branch, L.Named b) :
    Triple (· = s) (reapply (applyBlockState c L.execution L.toNames) branch) (fun _ => L.Idle) L.Failed := by
  induction branch generalizing s with
  | nil => exact .pure_eq h
  | cons b branch ih =>
    refine .seq (applyNext_idle h (hb b mem_cons_self)) fun _ s1 h1 => ?_
    exact ih h1 fun b' hb' => hb b' (mem_cons_of_mem _ hb')

lemma revert_idle {old : List BlockState} (applied : List BlockState) (ho : ∀ b ∈ old, L.Named b) (e : Thrown) :
    Triple (· = s) (revert undoStore (applyBlockState c L.execution L.toNames) old applied b e) (fun _ => L.Idle) L.Failed := by
  refine .seq (setValidity_idle h b false) fun _ s1 h1 => ?_
  refine .seq (unwind_idle h1 applied) fun _ s2 h2 => ?_
  refine .seq (requireHeadBelow_idle h2 old _) fun _ s3 h3 => ?_
  refine .seq (reapply_idle h3 fun b hb => ho b (mem_reverse.mp hb)) fun _ s4 h4 => ?_
  exact .throw_eq (h4.failed e)

end

lemma Ledger.Failed.idle {e : Thrown} (h : L.Failed e s) (he : e.isFc = true) : L.Idle s := by
  have hne : e.code ≠ .undefinedBehavior := by
    intro hu
    rw [Thrown.isFc, hu] at he
    cases he
  exact ⟨(h hne).1, (h hne).2 he⟩

lemma catchFc_idle {x : Step (Store δ τ) Unit} {handler : Thrown → Step (Store δ τ) Unit}
    (hx : Triple (· = s) x (fun _ => L.Idle) L.Failed)
    (hh : ∀ e s', L.Idle s' → Triple (· = s') (handler e) (fun _ => L.Idle) L.Failed) :
    Triple (· = s) (catchFc x handler) (fun _ => L.Idle) L.Failed := by
  refine catchFc_spec hx ?_ fun _ _ _ h => h
  intro e he
  refine .pointwise ?_
  intro s' hs'
  exact hh e s' (hs'.idle he)

lemma applyBranch_idle (h : L.Idle s) {old branch : List BlockState} (applied : List BlockState)
    (ho : ∀ b ∈ old, L.Named b) (hb : ∀ b ∈ branch, L.Named b) :
    Triple (· = s) (applyBranch undoStore (applyBlockState c L.execution L.toNames) old applied branch)
      (fun _ => L.Idle) L.Failed := by
  induction branch generalizing s applied with
  | nil => exact .pure_eq h
  | cons b branch ih =>
    refine .seq (catchFc_idle ?_ fun e s' h' => revert_idle h' applied ho e) fun _ s1 h1 => ?_
    · exact .seq (applyNext_idle h (hb b mem_cons_self)) fun _ s2 h2 => setValidity_idle h2 b true
    · exact ih h1 (b :: applied) fun b' hb' => hb b' (mem_cons_of_mem _ hb')

lemma extendHead_idle (h : L.Idle s) (hb : b ∈ s.forkDb.index.rows) :
    Triple (· = s) (extendHead (applyBlockState c L.execution L.toNames) b) (fun _ => L.Idle) L.Failed := by
  have hn := h.1.rows.named b hb
  refine catchFc_idle ?_ fun e s' h' => Triple.seq (setValidity_idle h' b false) fun _ s'' h'' => ?_
  · refine .seq ((applyBlockState_idle h hn).weaken fun _ _ h _ => h) fun _ s1 h1 => ?_
    have hmem : b.id ∈ s1.forkDb.index.ids := h1.sameHead.2 ▸ mem_ids_of_mem hb
    refine .seq ((mark_spec hmem true).weaken fun _ _ h => h.elim) ?_
    rintro _ _ ⟨db, ⟨hm, _⟩, rfl⟩
    refine .seq ((onForkDb_spec (setValidity_spec db b true)).weaken ?_) ?_
    · rintro e _ ⟨db', he, rfl⟩ hne
      exact absurd he hne
    · rintro _ _ ⟨db', ⟨hs, _⟩, rfl⟩
      refine .modify_eq ?_
      have hmarked := (h1.setHead hn).reshape hm.shape
      rcases hs with hs | hs
      · exact hmarked.reshape hs
      · exact hmarked.sub hs.sub
  · exact .throw_eq (h''.failed e)

lemma maybeSwitchForks_idle (h : L.Idle s) :
    Triple (· = s) (maybeSwitchForks undoStore (applyBlockState c L.execution L.toNames)) (fun _ => L.Idle) L.Failed := by
  refine .getBind_eq ?_
  cases hb : s.forkDb.head.bind s.forkDb.getBlock with
  | none => exact .throw _ fun _ _ hne => absurd rfl hne
  | some newHead =>
    obtain ⟨i, _, hget⟩ := Option.bind_eq_some_iff.mp hb
    have hmem := (find?_eq_some.mp hget).1
    refine .getBind_eq ?_
    split_ifs
    · exact extendHead_idle h hmem
    · cases hf : s.forkDb.index.fetchBranchFrom newHead.id s.head.id with
      | none => exact .throw _ fun _ _ hne => absurd rfl hne
      | some branches =>
        obtain ⟨hfirst, hsecond⟩ := fetchBranchFrom_mem hf
        refine .seq (unwind_idle h branches.2) fun _ s1 h1 => ?_
        refine .seq (requireHeadBelow_idle h1 branches.2 _) fun _ s2 h2 => ?_
        exact applyBranch_idle h2 [] (fun b hb => h.1.rows.named b (hsecond b hb))
          fun b hb => h.1.rows.named b (hfirst b (mem_reverse.mp hb))
    · exact .pure_eq h

lemma switchForks_idle (h : L.Idle s) (faults : List (Faults δ)) :
    Triple (· = s) (switchForks c L.execution L.toNames faults) (fun _ => L.Idle) L.Failed :=
  Triple.modifyBind (maybeSwitchForks_idle ⟨h.1.withFaults faults, h.2⟩)

end XosChain.Controller
