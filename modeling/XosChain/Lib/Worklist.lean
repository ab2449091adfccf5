import Mathlib.Data.List.Basic
import Mathlib.Tactic.Common

namespace XosChain.Lib

open List

variable {σ ι : Type}

def worklist (expand : σ → ι → List ι × σ) : ℕ → List ι → σ → σ
  | 0, _, s => s
  | _ + 1, [], s => s
  | fuel + 1, i :: queue, s => worklist expand fuel (queue ++ (expand s i).1) (expand s i).2

inductive Drains (expand : σ → ι → List ι × σ) : List ι → σ → σ → Prop
  | done {s : σ} : Drains expand [] s s
  | step {i : ι} {queue : List ι} {s t : σ} : Drains expand (queue ++ (expand s i).1) (expand s i).2 t →
    Drains expand (i :: queue) s t

lemma worklist_induction {expand : σ → ι → List ι × σ} {P : σ → Prop} (h : ∀ s i, P s → P (expand s i).2)
    (fuel : ℕ) (queue : List ι) {s : σ} (hs : P s) : P (worklist expand fuel queue s) := by
  induction fuel generalizing queue s with
  | zero => exact hs
  | succ fuel ih =>
    cases queue with
    | nil => exact hs
    | cons i queue => exact ih _ (h s i hs)

structure Takes (expand : σ → ι → List ι × σ) (avail : σ → List ι) (child : σ → ι → ι → Prop) : Prop where
  mem_new : ∀ s i j, j ∈ (expand s i).1 ↔ j ∈ avail s ∧ child s i j
  mem_rest : ∀ s i j, j ∈ avail (expand s i).2 ↔ j ∈ avail s ∧ ¬ child s i j
  length : ∀ s i, (expand s i).1.length + (avail (expand s i).2).length = (avail s).length
  child_iff : ∀ s i j k, j ∈ avail (expand s i).2 → (child (expand s i).2 k j ↔ child s k j)

inductive Reaches (avail : σ → List ι) (child : σ → ι → ι → Prop) (s : σ) (starts : List ι) : ι → Prop
  | start {i j : ι} : i ∈ starts → j ∈ avail s → child s i j → Reaches avail child s starts j
  | step {i j : ι} : Reaches avail child s starts i → j ∈ avail s → child s i j → Reaches avail child s starts j

section

variable {expand : σ → ι → List ι × σ} {avail : σ → List ι} {child : σ → ι → ι → Prop} {s : σ} {i j : ι}
  {queue : List ι}

lemma Reaches.mem (h : Reaches avail child s queue j) : j ∈ avail s := by
  cases h with
  | start _ hj _ => exact hj
  | step _ hj _ => exact hj

lemma not_reaches_nil : ¬ Reaches avail child s [] j := by
  intro h
  induction h with
  | start hi _ _ => cases hi
  | step _ _ _ ih => exact ih

lemma Takes.reaches_of_cons (h : Takes expand avail child) (hr : Reaches avail child s (i :: queue) j) :
    child s i j ∨ Reaches avail child (expand s i).2 (queue ++ (expand s i).1) j := by
  induction hr with
  | @start k j hk hj hc =>
    by_cases hij : child s i j
    · exact .inl hij
    · have hj' := (h.mem_rest s i j).mpr ⟨hj, hij⟩
      rcases mem_cons.mp hk with rfl | hk
      · exact absurd hc hij
      · exact .inr (.start (mem_append_left _ hk) hj' ((h.child_iff s i j k hj').mpr hc))
  | @step k j hk hj hc ih =>
    by_cases hij : child s i j
    · exact .inl hij
    · have hj' := (h.mem_rest s i j).mpr ⟨hj, hij⟩
      have hc' := (h.child_iff s i j k hj').mpr hc
      rcases ih with hik | hk'
      · have hnew := (h.mem_new s i k).mpr ⟨hk.mem, hik⟩
        exact .inr (.start (mem_append_right _ hnew) hj' hc')
      · exact .inr (.step hk' hj' hc')

lemma Takes.reaches_of_expand (h : Takes expand avail child)
    (hr : Reaches avail child (expand s i).2 (queue ++ (expand s i).1) j) : Reaches avail child s (i :: queue) j := by
  induction hr with
  | @start k j hk hj hc =>
    have hj' := ((h.mem_rest s i j).mp hj).1
    have hc' := (h.child_iff s i j k hj).mp hc
    rcases mem_append.mp hk with hk | hk
    · exact .start (mem_cons_of_mem i hk) hj' hc'
    · obtain ⟨hk, hik⟩ := (h.mem_new s i k).mp hk
      exact .step (.start mem_cons_self hk hik) hj' hc'
  | @step k j _ hj hc ih => exact .step ih ((h.mem_rest s i j).mp hj).1 ((h.child_iff s i j k hj).mp hc)

variable {fuel : ℕ}

lemma Takes.fuel_le (h : Takes expand avail child)
    (hf : (i :: queue).length + (avail s).length ≤ fuel + 1) :
    (queue ++ (expand s i).1).length + (avail (expand s i).2).length ≤ fuel := by
  have hlen := h.length s i
  rw [length_append]
  rw [length_cons] at hf
  omega

lemma Takes.mem_worklist (h : Takes expand avail child) (hf : queue.length + (avail s).length ≤ fuel) :
    j ∈ avail (worklist expand fuel queue s) ↔ j ∈ avail s ∧ ¬ Reaches avail child s queue j := by
  induction fuel generalizing queue s with
  | zero =>
    obtain rfl : queue = [] := length_eq_zero_iff.mp (by omega)
    exact ⟨fun hj => ⟨hj, not_reaches_nil⟩, And.left⟩
  | succ fuel ih =>
    cases queue with
    | nil => exact ⟨fun hj => ⟨hj, not_reaches_nil⟩, And.left⟩
    | cons i queue =>
      rw [worklist, ih (h.fuel_le hf), h.mem_rest]
      constructor
      · rintro ⟨⟨hj, hc⟩, hr⟩
        refine ⟨hj, fun hcons => ?_⟩
        rcases h.reaches_of_cons hcons with hc' | hr'
        · exact hc hc'
        · exact hr hr'
      · rintro ⟨hj, hr⟩
        exact ⟨⟨hj, fun hc => hr (.start mem_cons_self hj hc)⟩, fun hr' => hr (h.reaches_of_expand hr')⟩

lemma Takes.drains (h : Takes expand avail child) (hf : queue.length + (avail s).length ≤ fuel) :
    Drains expand queue s (worklist expand fuel queue s) := by
  induction fuel generalizing queue s with
  | zero =>
    obtain rfl : queue = [] := length_eq_zero_iff.mp (by omega)
    exact .done
  | succ fuel ih =>
    cases queue with
    | nil => exact .done
    | cons i queue => exact .step (ih (h.fuel_le hf))

end

end XosChain.Lib
