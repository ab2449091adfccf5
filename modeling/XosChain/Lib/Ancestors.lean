import Mathlib.Data.Finset.Card
import Mathlib.Logic.Relation
import Mathlib.Order.Basic

namespace XosChain.Lib

variable {ι : Type}

def Edge (up : ι → Option ι) (x y : ι) : Prop := up x = some y

def reaches [DecidableEq ι] (up : ι → Option ι) (target : ι) : ℕ → ι → Option Bool
  | 0, _ => none
  | fuel + 1, x =>
    match up x with
    | none => some false
    | some y => if y = target then some true else reaches up target fuel y

variable {up : ι → Option ι}

lemma transGen_iff_of_edge {x y target : ι} (h : up x = some y) :
    Relation.TransGen (Edge up) x target ↔ y = target ∨ Relation.TransGen (Edge up) y target := by
  rw [Relation.TransGen.head'_iff, eq_comm, ← Relation.reflTransGen_iff_eq_or_transGen]
  constructor
  · rintro ⟨z, hz, ht⟩
    obtain rfl := Option.some.inj (h.symm.trans hz)
    exact ht
  · exact fun ht => ⟨y, h, ht⟩

lemma not_transGen_of_none {x target : ι} (h : up x = none) : ¬ Relation.TransGen (Edge up) x target := by
  intro ht
  obtain ⟨z, hz, -⟩ := Relation.TransGen.head'_iff.mp ht
  simp [Edge, h] at hz

variable [LinearOrder ι]

lemma lt_of_transGen (hup : ∀ x y, up x = some y → y < x) {x y : ι} (h : Relation.TransGen (Edge up) x y) : y < x := by
  induction h with
  | single h => exact hup _ _ h
  | tail _ h ih => exact (hup _ _ h).trans ih

lemma reaches_eq {nodes : Finset ι} (hup : ∀ x y, up x = some y → x ∈ nodes ∧ y < x) (target : ι) {fuel : ℕ} {x : ι}
    (hf : (nodes.filter (· ≤ x)).card < fuel) :
    ∃ b, reaches up target fuel x = some b ∧ (b = true ↔ Relation.TransGen (Edge up) x target) := by
  induction fuel generalizing x with
  | zero => omega
  | succ fuel ih =>
    rw [reaches]
    cases hx : up x with
    | none => exact ⟨false, rfl, by simpa using not_transGen_of_none hx⟩
    | some y =>
      rw [transGen_iff_of_edge hx]
      by_cases ht : y = target
      · exact ⟨true, by simp [ht], by simp [ht]⟩
      · obtain ⟨hm, hlt⟩ := hup x y hx
        have hss : nodes.filter (· ≤ y) ⊂ nodes.filter (· ≤ x) := by
          refine Finset.ssubset_iff_of_subset ?_ |>.mpr ⟨x, by simpa using hm, by simpa using fun _ => hlt⟩
          exact Finset.monotone_filter_right _ (fun z _ hz => le_trans hz hlt.le)
        have hcard := Finset.card_lt_card hss
        obtain ⟨b, hb, hiff⟩ := ih (x := y) (by omega)
        exact ⟨b, by simp [ht, hb], by simp [ht, hiff]⟩

end XosChain.Lib
