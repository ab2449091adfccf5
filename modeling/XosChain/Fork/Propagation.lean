import XosChain.Fork.Closure

namespace XosChain.Fork

open Lib Header

namespace Index

variable {idx : Index} {b s p : BlockState} {j : BlockId}

lemma Lifted.descends (h : Lifted idx b j) : idx.Descends b.id j := by
  induction h with
  | self => exact .self
  | child hs _ _ ih => exact .child hs ih

lemma Descends.lifted_or (hg : idx.Grounded) (h : idx.Descends b.id j) :
    Lifted idx b j ∨ ∃ s ∈ idx.rows, s.id = j ∧ b.blockNum ≤ s.bftIrreversibleBlocknum := by
  induction h with
  | self => exact .inl .self
  | @child s hs _ ih =>
    by_cases hlt : s.bftIrreversibleBlocknum < b.blockNum
    · rcases ih with hl | ⟨p, hp, hid, hle⟩
      · exact .inl (.child hs hlt hl)
      · exact absurd (hle.trans (hg.bft s hs p hp hid)) (not_le.mpr hlt)
    · exact .inr ⟨s, hs, rfl, not_lt.mp hlt⟩

lemma Grounded.raises (hg : idx.Grounded) (hb : b ∈ idx.rows) (hlt : b.bftIrreversibleBlocknum < b.blockNum) :
    ∃ g : BlockState → BlockState, (idx.setBftIrreversible b).rows = idx.rows.map g ∧ ∀ s ∈ idx.rows,
      (idx.Descends b.id s.id → g s = s.setBft (max s.bftIrreversibleBlocknum b.blockNum)) ∧
      (¬ idx.Descends b.id s.id → g s = s) := by
  obtain ⟨g, he, hcases⟩ := idx.setBftIrreversible_rows b
  refine ⟨g, he, ?_⟩
  intro s hs
  rcases hcases s hs with ⟨hl, hgs⟩ | ⟨hl, hgs⟩
  · refine ⟨fun _ => ?_, fun hd => absurd hl.descends hd⟩
    rw [hgs, max_eq_right (Lifted.bft_lt hb rfl hlt hs hl).le]
  · refine ⟨fun hd => ?_, fun _ => hgs⟩
    rcases hd.lifted_or hg with hl' | ⟨t, ht, hid, hle⟩
    · exact absurd hl' hl
    · rw [eq_of_id ht hs hid] at hle
      rw [hgs, max_eq_left hle]
      rfl

lemma Grounded.bft_le_of_descends (hg : idx.Grounded) (hp : p ∈ idx.rows) (h : idx.Descends p.id j) (hs : s ∈ idx.rows)
    (hid : s.id = j) : p.bftIrreversibleBlocknum ≤ s.bftIrreversibleBlocknum := by
  obtain ⟨base, num, ht⟩ := hg.tree
  induction h generalizing s with
  | self => rw [eq_of_id hs hp hid]
  | @child u hu hd ih =>
    rw [eq_of_id hs hu hid]
    have hlt := hd.num_lt ht hp hu rfl
    obtain ⟨q, hq, hqid, _⟩ := (ht.rooted u hu).resolve_left
      fun hroot => absurd (ht.rooted.num_le hp) (by omega)
    exact (ih hq hqid).trans (hg.bft u hu q hq hqid)

end Index

namespace ForkDatabase

theorem run_propagates_bft {c : Crypto} {root : BlockState} {db : ForkDatabase} (h : Run c (Sized c) root db)
    (hroot : WellFormed c root) :
    (∀ b ∈ db.index.rows, b.bftIrreversibleBlocknum < b.blockNum →
      Drains (Index.liftChildren b.blockNum) [b.id] (db.index.confirmed b) (db.index.setBftIrreversible b) ∧
      ∃ g : BlockState → BlockState, (db.index.setBftIrreversible b).rows = db.index.rows.map g ∧
        ∀ s ∈ db.index.rows,
          (db.index.Descends b.id s.id → g s = s.setBft (max s.bftIrreversibleBlocknum b.blockNum)) ∧
          (¬ db.index.Descends b.id s.id → g s = s)) ∧
    ∀ p ∈ db.index.rows, ∀ s ∈ db.index.rows, db.index.Descends p.id s.id →
      p.bftIrreversibleBlocknum ≤ s.bftIrreversibleBlocknum := by
  have hg := h.grounded hroot
  refine ⟨?_, fun p hp s hs hd => hg.bft_le_of_descends hp hd hs rfl⟩
  intro b hb hlt
  exact ⟨(Index.liftChildren_takes b.blockNum).drains (db.index.confirmed_fuel b), hg.raises hb hlt⟩

theorem forked_raises_descendants : testRoot.bftIrreversibleBlocknum < testRoot.blockNum ∧
    forked.index.Descends testRoot.id upper.id ∧ forked.index.Descends testRoot.id lower.id ∧
    forked.index.rows.map (fun s => s.bftIrreversibleBlocknum) = [0, 0, 0] ∧
    (forked.index.setBftIrreversible testRoot).rows.map (fun s => s.bftIrreversibleBlocknum) = [1, 1, 1] ∧
    Drains (Index.liftChildren testRoot.blockNum) [testRoot.id] (forked.index.confirmed testRoot)
      (forked.index.setBftIrreversible testRoot) ∧
    testRoot.bftIrreversibleBlocknum ≤ upper.bftIrreversibleBlocknum :=
  ⟨by decide +kernel, descends_of_climbs 2 (by decide +kernel), descends_of_climbs 2 (by decide +kernel),
    by decide +kernel, by decide +kernel,
    ((run_propagates_bft forked_sized testRoot_wellFormed).1 testRoot (by decide +kernel) (by decide +kernel)).1,
    (run_propagates_bft forked_sized testRoot_wellFormed).2 testRoot (by decide +kernel) upper (by decide +kernel)
      (descends_of_climbs 2 (by decide +kernel))⟩

end ForkDatabase

end XosChain.Fork
