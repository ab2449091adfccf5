import Mathlib

/-! Rules that fire when the weights of their premises reach a threshold, and the least set closed under
them. -/

namespace XosChain.Lib

open OrderHom

section

variable {β : Type} {P Q : β → Prop} {w : β → ℕ} {b : β} {l : List β}

open Classical in
noncomputable def weightOf (P : β → Prop) (w : β → ℕ) (l : List β) : ℕ := (l.map fun b => if P b then w b else 0).sum

@[simp] lemma weightOf_nil : weightOf P w [] = 0 := rfl

lemma weightOf_cons_of_pos (h : P b) : weightOf P w (b :: l) = w b + weightOf P w l := by
  simp [weightOf, h]

lemma weightOf_cons_of_neg (h : ¬ P b) : weightOf P w (b :: l) = weightOf P w l := by
  simp [weightOf, h]

lemma weightOf_mono (h : ∀ b ∈ l, P b → Q b) : weightOf P w l ≤ weightOf Q w l := by
  refine List.sum_le_sum ?_
  intro b hb
  by_cases hp : P b
  · simp [hp, h b hb hp]
  · simp [hp]

end

structure ThresholdSystem (α β : Type) where
  given : Set α
  rule : α → Option (ℕ × List β)
  weight : β → ℕ
  holds : Set α → β → Prop
  mono : ∀ {S T : Set α} {b : β}, S ⊆ T → holds S b → holds T b

namespace ThresholdSystem

variable {α β : Type} (s : ThresholdSystem α β) {S : Set α} {a : α}

def Fires (S : Set α) (a : α) : Prop :=
  ∃ threshold premises, s.rule a = some (threshold, premises) ∧ threshold ≤ weightOf (s.holds S) s.weight premises

def consequences : Set α →o Set α where
  toFun S := s.given ∪ {a | s.Fires S a}
  monotone' := by
    rintro S T hST a (ha | ⟨threshold, premises, hr, hle⟩)
    · exact .inl ha
    · exact .inr ⟨threshold, premises, hr, hle.trans (weightOf_mono fun b _ => s.mono hST)⟩

def Closed (S : Set α) : Prop := s.consequences S ⊆ S

def derivable : Set α := lfp s.consequences

variable {s}

lemma Closed.given (h : s.Closed S) (ha : a ∈ s.given) : a ∈ S := h (.inl ha)

lemma Closed.fires (h : s.Closed S) (ha : s.Fires S a) : a ∈ S := h (.inr ha)

lemma derivable_closed : s.Closed s.derivable := (map_lfp s.consequences).le

lemma derivable_subset (h : s.Closed S) : s.derivable ⊆ S := lfp_le _ h

lemma mem_derivable_iff : a ∈ s.derivable ↔ a ∈ s.given ∨ s.Fires s.derivable a := by
  conv_lhs => rw [derivable, ← map_lfp]
  rfl

lemma derivable_mono {t : ThresholdSystem α β} (hg : s.given ⊆ t.given) (hr : s.rule = t.rule) (hw : s.weight = t.weight)
    (hh : ∀ S b, s.holds S b → t.holds S b) : s.derivable ⊆ t.derivable := by
  refine derivable_subset ?_
  rintro a (ha | ⟨threshold, premises, hrule, hle⟩)
  · exact derivable_closed.given (hg ha)
  · refine derivable_closed.fires ⟨threshold, premises, hr ▸ hrule, ?_⟩
    rw [← hw]
    exact hle.trans (weightOf_mono fun b _ => hh _ b)

end ThresholdSystem

end XosChain.Lib
