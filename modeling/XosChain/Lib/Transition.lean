import Mathlib.Computability.StateTransition
import Mathlib.Tactic

namespace XosChain.Lib

open StateTransition Relation

variable {σ : Type} {f : σ → Option σ} {s t : σ}

lemma reaches₁_of_iterate (n : ℕ) (h : (·.bind f)^[n + 1] (some s) = some t) : Reaches₁ f s t := by
  have hnone : ∀ k, (fun x : Option σ => x.bind f)^[k] none = none := by
    intro k
    induction k with
    | zero => rfl
    | succ k ih => rw [Function.iterate_succ_apply]; exact ih
  induction n generalizing s with
  | zero => exact TransGen.single h
  | succ n ih =>
    rw [Function.iterate_succ_apply, Option.bind_some] at h
    cases hs : f s with
    | none =>
      rw [hs, hnone] at h
      cases h
    | some u =>
      rw [hs] at h
      exact TransGen.head hs (ih h)

def runsWithin (f : σ → Option σ) (ok : σ → Bool) : ℕ → σ → Bool
  | 0, _ => false
  | n + 1, s => ok s && (f s).all (runsWithin f ok n)

lemma runsWithin_reaches {ok : σ → Bool} {n : ℕ} (h : runsWithin f ok n s = true) (ht : Reaches f s t) :
    ok t = true := by
  induction n generalizing s with
  | zero => cases h
  | succ n ih =>
    rw [runsWithin, Bool.and_eq_true] at h
    rcases ReflTransGen.cases_head ht with rfl | ⟨u, hu, hreach⟩
    · exact h.1
    · rw [Option.mem_def.mp hu] at h
      exact ih h.2 hreach

section

variable (f) (ok : σ → Prop) [DecidablePred ok] (stop : σ)

def guarded (s : σ) : Option σ := if ok s then f s else some stop

variable {f ok stop}

lemma guarded_of_ok (h : ok s) : guarded f ok stop s = f s := if_pos h

lemma guarded_of_not_ok (h : ¬ ok s) : guarded f ok stop s = some stop := if_neg h

lemma reaches_of_guarded (h : ∀ t, Reaches f s t → ok t) (ht : Reaches (guarded f ok stop) s t) : Reaches f s t := by
  induction ht with
  | refl => exact ReflTransGen.refl
  | tail _ hstep ih =>
    rw [guarded_of_ok (h _ ih)] at hstep
    exact ReflTransGen.tail ih hstep

lemma guarded_reaches (h : ∀ t, Reaches f s t → ok t) (ht : Reaches f s t) : Reaches (guarded f ok stop) s t := by
  induction ht with
  | refl => exact ReflTransGen.refl
  | tail hreach hstep ih =>
    refine ReflTransGen.tail ih ?_
    rw [guarded_of_ok (h _ hreach)]
    exact hstep

lemma eval_guarded (h : ∀ t, Reaches f s t → ok t) : eval (guarded f ok stop) s = eval f s := by
  ext t
  rw [mem_eval, mem_eval]
  constructor
  · rintro ⟨hreach, hstop⟩
    have hreach' := reaches_of_guarded h hreach
    exact ⟨hreach', (guarded_of_ok (h t hreach')).symm.trans hstop⟩
  · rintro ⟨hreach, hstop⟩
    exact ⟨guarded_reaches h hreach, (guarded_of_ok (h t hreach)).trans hstop⟩

lemma mem_eval_guarded (hstop : f stop = none) (hok : ok stop) (ht : Reaches f s t) (hbad : ¬ ok t) :
    stop ∈ eval (guarded f ok stop) s := by
  have hend : guarded f ok stop stop = none := (guarded_of_ok hok).trans hstop
  have hnow : ∀ u, ¬ ok u → stop ∈ eval (guarded f ok stop) u := by
    intro u hu
    exact mem_eval.mpr ⟨ReflTransGen.single (guarded_of_not_ok hu), hend⟩
  induction ht using ReflTransGen.head_induction_on with
  | refl => exact hnow t hbad
  | @head u v hstep _ ih =>
    by_cases hu : ok u
    · have hreach : Reaches (guarded f ok stop) u v := ReflTransGen.single ((guarded_of_ok hu).trans hstep)
      rw [reaches_eval hreach]
      exact ih
    · exact hnow u hu

end

end XosChain.Lib
