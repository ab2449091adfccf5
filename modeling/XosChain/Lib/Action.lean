import Mathlib.Tactic.Common

/-! Actions that change a state and may throw. A thrown exception leaves the state as it was at the
throw, so a rule has one postcondition for each way out. -/

namespace XosChain.Lib

variable {ε σ α β : Type}

lemma bind_of_ok {x : EStateM ε σ α} {f : α → EStateM ε σ β} {s t : σ} {a : α} (h : x s = .ok a t) :
    (x >>= f) s = f a t := by
  change EStateM.bind x f s = f a t
  rw [EStateM.bind, h]

lemma getBind_apply {f : σ → EStateM ε σ β} (s : σ) : (MonadState.get >>= f : EStateM ε σ β) s = f s s := rfl

def Triple (P : σ → Prop) (x : EStateM ε σ α) (Q : α → σ → Prop) (R : ε → σ → Prop) : Prop :=
  ∀ s, P s → match x s with
    | .ok a t => Q a t
    | .error e t => R e t

section

variable {P P' : σ → Prop} {Q Q' : α → σ → Prop} {R R' : ε → σ → Prop} {x : EStateM ε σ α} {s t : σ} {a : α} {e : ε}
  {f : σ → σ} {S : β → σ → Prop}

lemma Triple.ok (h : Triple P x Q R) (hs : P s) (hx : x s = .ok a t) : Q a t := by
  have := h s hs
  rw [hx] at this
  exact this

lemma Triple.error (h : Triple P x Q R) (hs : P s) (hx : x s = .error e t) : R e t := by
  have := h s hs
  rw [hx] at this
  exact this

lemma Triple.conseq (h : Triple P x Q R) (hP : ∀ s, P' s → P s) (hQ : ∀ a s, Q a s → Q' a s)
    (hR : ∀ e s, R e s → R' e s) : Triple P' x Q' R' := by
  intro s hs
  have := h s (hP s hs)
  cases hx : x s with
  | ok a t =>
    rw [hx] at this
    exact hQ a t this
  | error e t =>
    rw [hx] at this
    exact hR e t this

lemma Triple.of_eq (h : Triple P x Q R) (hs : P s) : Triple (· = s) x Q R := by
  rintro _ rfl
  exact h _ hs

lemma Triple.conseq_eq (h : Triple (· = s) x Q R) (hQ : ∀ a t, x s = .ok a t → Q a t → Q' a t)
    (hR : ∀ e t, x s = .error e t → R e t → R' e t) : Triple (· = s) x Q' R' := by
  intro s' hs'
  rw [hs']
  have := h s rfl
  cases hx : x s with
  | ok a t =>
    rw [hx] at this
    exact hQ a t hx this
  | error e t =>
    rw [hx] at this
    exact hR e t hx this

lemma Triple.pointwise (h : ∀ s, P s → Triple (· = s) x Q R) : Triple P x Q R := fun s hs => h s hs s rfl

lemma Triple.and_ok {Q' : α → σ → Prop} {R' : ε → σ → Prop} (h : Triple P x Q R) (h' : Triple P x Q' R') :
    Triple P x (fun a s => Q a s ∧ Q' a s) R := by
  intro s hs
  have hok := h s hs
  have hok' := h' s hs
  cases hx : x s with
  | ok a t =>
    rw [hx] at hok hok'
    exact ⟨hok, hok'⟩
  | error e t =>
    rw [hx] at hok
    exact hok

lemma Triple.weaken (h : Triple P x Q R) (hR : ∀ e s, R e s → R' e s) : Triple P x Q R' :=
  h.conseq (fun _ hs => hs) (fun _ _ hs => hs) hR

lemma Triple.pure (a : α) (h : ∀ s, P s → Q a s) : Triple P (pure a : EStateM ε σ α) Q R := h

lemma Triple.throw (e : ε) (h : ∀ s, P s → R e s) : Triple P (throw e : EStateM ε σ α) Q R := h

lemma Triple.pure_eq (h : Q a s) : Triple (· = s) (Pure.pure a : EStateM ε σ α) Q R := by
  rintro _ rfl
  exact h

lemma Triple.throw_eq (h : R e s) : Triple (· = s) (MonadExcept.throw e : EStateM ε σ α) Q R := by
  rintro _ rfl
  exact h

lemma Triple.set {t : σ} {Q : Unit → σ → Prop} (h : Q () t) : Triple P (set t : EStateM ε σ Unit) Q R := fun _ _ => h

lemma Triple.modify_eq {Q : Unit → σ → Prop} (h : Q () (f s)) :
    Triple (· = s) (modify f : EStateM ε σ Unit) Q R := by
  rintro _ rfl
  exact h

lemma Triple.modify {Q : Unit → σ → Prop} (h : ∀ s, P s → Q () (f s)) :
    Triple P (modify f : EStateM ε σ Unit) Q R := h

lemma Triple.bind {f : α → EStateM ε σ β} (hx : Triple P x Q R) (hf : ∀ a, Triple (Q a) (f a) S R) :
    Triple P (x >>= f) S R := by
  intro s hs
  change match EStateM.bind x f s with | .ok a t => S a t | .error e t => R e t
  have h := hx s hs
  rw [EStateM.bind]
  cases hs' : x s with
  | ok a t =>
    rw [hs'] at h
    exact hf a t h
  | error e t =>
    rw [hs'] at h
    exact h

lemma Triple.seq {f : α → EStateM ε σ β} (hx : Triple P x Q R) (hf : ∀ a s, Q a s → Triple (· = s) (f a) S R) :
    Triple P (x >>= f) S R :=
  hx.bind fun a s hs => hf a s hs s rfl

lemma Triple.getBind {f : σ → EStateM ε σ β} (h : ∀ s, P s → Triple (· = s) (f s) S R) :
    Triple P (MonadState.get >>= f) S R :=
  fun s hs => h s hs s rfl

lemma Triple.getBind_eq {f : σ → EStateM ε σ β} (h : Triple (· = s) (f s) S R) :
    Triple (· = s) (MonadState.get >>= f) S R := by
  rintro _ rfl
  exact h _ rfl

lemma Triple.modifyBind {k : Unit → EStateM ε σ β} (h : Triple (· = f s) (k ()) S R) :
    Triple (· = s) (modifyGet (fun s => ((), f s)) >>= k) S R := by
  rintro _ rfl
  exact h _ rfl

lemma Triple.setBind {t : σ} {k : PUnit → EStateM ε σ β} (h : Triple (· = t) (k ()) S R) :
    Triple P (MonadStateOf.set t >>= k) S R :=
  .bind (.set (Q := fun _ s => s = t) rfl) fun _ => h

lemma Triple.tryCatch {handler : ε → EStateM ε σ α} (hx : Triple P x Q R) (hh : ∀ e, Triple (R e) (handler e) Q R') :
    Triple P (tryCatch x handler) Q R' := by
  intro s hs
  change match EStateM.tryCatch x handler s with | .ok a t => Q a t | .error e t => R' e t
  have h := hx s hs
  rw [EStateM.tryCatch]
  cases hs' : x s with
  | ok a t =>
    rw [hs'] at h
    exact h
  | error e t =>
    rw [hs'] at h
    exact hh e t h

lemma Triple.forM {f : β → EStateM ε σ PUnit} {l : List β} (h : ∀ b, Triple P (f b) (fun _ => P) R) :
    Triple P (l.forM f) (fun _ => P) R := by
  induction l with
  | nil => exact .pure _ fun _ hs => hs
  | cons b l ih => exact (h b).bind fun _ => ih

end

end XosChain.Lib
