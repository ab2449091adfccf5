import XosChain.Controller.Commit

namespace XosChain.Controller

open Lib Header Fork

variable {δ τ : Type} {L : Ledger δ τ} {s s' : State (Store δ τ)} {p : Pending τ} {c : Crypto} {f : Faults δ}
  {b : BlockState}

lemma SameHead.trans {s'' : State (Store δ τ)} (h : SameHead s s') (h' : SameHead s' s'') : SameHead s s'' :=
  ⟨h'.1.trans h.1, h'.2.trans h.2⟩

def ApplyFailed (L : Ledger δ τ) (s : State (Store δ τ)) (e : Thrown) (s' : State (Store δ τ)) : Prop :=
  SameHead s s' ∧ (L.Good s' ∨ e.isFc = true ∧ L.Abortable s')

section

variable (h : L.Good s) (hp : s.store.pending = some p)

include h hp

lemma applyTransaction_spec (hs : p.stage = .started) (t : τ) (fault : Option Thrown) :
    Triple (· = s) (applyTransaction L.execution t fault)
      (fun _ s' => L.Good s' ∧ SameHead s s' ∧ ∃ p', s'.store.pending = some p' ∧ p'.stage = .started ∧
        p'.transactions = p.transactions ++ [t])
      (fun _ s' => L.Good s' ∧ SameHead s s') := by
  refine .seq ((pushTransaction_spec h hp hs t fault).weaken ?_) ?_
  · rintro _ _ rfl
    exact ⟨h, rfl, rfl⟩
  · rintro r s' ⟨hg, hsame, hr⟩
    cases r with
    | none => exact .pure_eq ⟨hg, hsame, hr rfl⟩
    | some e => exact .throw_eq ⟨hg, hsame⟩

lemma applyTransactions_spec (hs : p.stage = .started) (faults : ℕ → Option Thrown) (k : ℕ) (transactions : List τ) :
    Triple (· = s) (applyTransactions L.execution faults k transactions)
      (fun _ s' => L.Good s' ∧ SameHead s s' ∧ ∃ p', s'.store.pending = some p' ∧ p'.stage = .started ∧
        p'.transactions = p.transactions ++ transactions)
      (fun _ s' => L.Good s' ∧ SameHead s s') := by
  induction transactions generalizing s p k with
  | nil => exact .pure_eq ⟨h, ⟨rfl, rfl⟩, p, hp, hs, (List.append_nil _).symm⟩
  | cons t transactions ih =>
    refine .seq (applyTransaction_spec h hp hs t (faults k)) ?_
    rintro _ s1 ⟨hg, hsame, p1, hp1, hs1, ht1⟩
    refine (ih hg hp1 hs1 (k + 1)).conseq (fun _ h => h) ?_ ?_
    · rintro _ s2 ⟨hg2, hsame2, p2, hp2, hs2, ht2⟩
      refine ⟨hg2, hsame.trans hsame2, p2, hp2, hs2, ?_⟩
      rw [ht2, ht1, List.append_assoc]
      rfl
    · rintro _ s2 ⟨hg2, hsame2⟩
      exact ⟨hg2, hsame.trans hsame2⟩

lemma commitWithoutForkDb_spec (o : OnIrreversible) :
    Triple (· = s) (commitBlock false o f)
      (fun _ s' => s' = { s with store := { s.store with pending := none } })
      (fun _ s' => L.Good s' ∧ SameHead s s') := by
  refine .getBind_eq ?_
  rw [hp]
  refine .seq (Q := fun _ => (· = s)) (.tryCatch (R := fun _ => (· = s)) ?_ fun e => ?_) ?_
  · refine .bind (Q := fun _ => (· = s)) (Triple.pure _ fun _ h => h) fun _ => ?_
    exact .bind (raise_spec s _) fun _ => raise_spec s _
  · refine .seq ((abortBlock_spec h).weaken fun _ _ h => h.elim) ?_
    rintro _ s' ⟨hg, hsame, _⟩
    exact .throw_eq ⟨hg, hsame⟩
  · intro _ s' hs'
    rw [hs']
    exact .modify_eq rfl

end

structure Applied (L : Ledger δ τ) (s : State (Store δ τ)) (b : BlockState) (s' : State (Store δ τ)) : Prop where
  sameHead : SameHead s s'
  pending : s'.store.pending = none
  rows : L.Rows s'.forkDb.index s'.store.db
  position : L.At b.id s'.store.db

lemma Finished.identifies (h : L.Good s) (hp : s.store.pending = some p) (hb : L.Named b)
    (ht : p.transactions = (L.body b.id).transactions) (hh : p.block.header = (L.body b.id).header) :
    L.Identifies b.id p := by
  have ho := h.open hp
  have hprev : b.prev = s.head.id := by
    rw [← hb.prev, Ledger.prev, ← hh]
    exact ho.prev
  refine ⟨by rw [hh, ht], ?_⟩
  rw [hb.num, hprev, ho.blockNum, h.head.blockNum]

lemma applyBody_spec (h : L.Good s) (hb : L.Named b) :
    Triple (· = s) (applyBody c L.execution b.id (L.body b.id) f) (fun _ => Applied L s b) (ApplyFailed L s) := by
  refine .seq ((startBlock_spec h _ _ _).weaken ?_) ?_
  · rintro _ _ rfl
    exact ⟨⟨rfl, rfl⟩, .inl h⟩
  rintro _ s1 ⟨h1, hsame1, p1, hp1, hs1, ht1⟩
  refine .seq ((applyTransactions_spec h1 hp1 hs1 _ _ _).weaken ?_) ?_
  · rintro _ s2 ⟨hg, hsame⟩
    exact ⟨hsame1.trans hsame, .inl hg⟩
  rintro _ s2 ⟨h2, hsame2, p2, hp2, hs2, ht2⟩
  rw [ht1, List.nil_append] at ht2
  have hsame := hsame1.trans hsame2
  refine .seq ((finalizeBlock_finished h2 hp2 hs2 b.id _).weaken ?_) ?_
  · rintro _ s3 ⟨hg, hsame3⟩
    exact ⟨hsame.trans hsame3, .inl hg⟩
  rintro _ s3 hf
  refine .seq (Q := fun _ s' => s' = s3 ∧ p2.block.header = (L.body b.id).header) ?_ ?_
  · refine .getBind_eq ?_
    rw [hf.pending]
    split_ifs with hh
    · exact .pure_eq ⟨rfl, Option.some.inj hh⟩
    · exact .throw_eq ⟨hsame.trans hf.sameHead, .inr ⟨rfl, hf.abortable⟩⟩
  · rintro _ s4 ⟨he, hh⟩
    rw [he]
    have hg := hf.good (Finished.identifies h2 hp2 hb ht2 hh)
    refine (commitWithoutForkDb_spec hg hf.pending _).conseq (fun _ h => h) ?_ ?_
    · rintro _ _ rfl
      exact ⟨hsame.trans hf.sameHead, rfl, hg.rows, (hg.open hf.pending).committed rfl⟩
    · rintro _ s5 ⟨hg5, hsame5⟩
      exact ⟨(hsame.trans hf.sameHead).trans hsame5, .inl hg5⟩

lemma applyBlockState_spec (h : L.Good s) (hb : L.Named b) :
    Triple (· = s) (applyBlockState c L.execution L.toNames b) (fun _ => Applied L s b)
      (fun e s' => L.Good s' ∧ SameHead s s' ∧ (e.isFc = true → s'.store.pending = none)) := by
  refine .seq (Q := fun _ s' => ∃ faults, s' = { s with store := { s.store with faults := faults } }) ?_ ?_
  · exact .getBind_eq (.setBind (.pure_eq ⟨_, rfl⟩))
  · rintro f _ ⟨faults, rfl⟩
    have hbody : Triple (· = { s with store := { s.store with faults := faults } })
        (applyBody c L.execution b.id (L.body b.id) f) (fun _ => Applied L s b) (ApplyFailed L s) :=
      (applyBody_spec (h.withFaults faults) hb).conseq (fun _ h => h)
        (fun _ _ h => ⟨h.sameHead, h.pending, h.rows, h.position⟩) fun _ _ h => h
    refine catchFc_spec hbody ?_ ?_
    · intro e _
      refine .pointwise ?_
      rintro s' ⟨hsame, hg⟩
      have hab : L.Abortable s' := hg.elim Ledger.Good.abortable And.right
      refine .seq ((abortBlock_abortable hab).weaken fun _ _ h => h.elim) ?_
      rintro _ s'' ⟨hg'', hsame'', hp''⟩
      exact .throw_eq ⟨hg'', SameHead.trans hsame hsame'', fun _ => hp''⟩
    · rintro e s' hne ⟨hsame, hg⟩
      refine ⟨?_, hsame, fun hfc => absurd hfc hne⟩
      rcases hg with hg | ⟨hfc, _⟩
      · exact hg
      · exact absurd hfc hne

end XosChain.Controller
