import XosChain.Lib.Action

namespace XosChain.Lib

variable {ε σ α : Type} {s : σ}

def onThrow (guard : σ → σ → σ) (x : EStateM ε σ α) : EStateM ε σ α := fun s =>
  match x s with
  | .ok a t => .ok a t
  | .error e t => .error e (guard s t)

def onExit (guard : σ → σ → σ) (x : EStateM ε σ α) : EStateM ε σ α := fun s =>
  match x s with
  | .ok a t => .ok a (guard s t)
  | .error e t => .error e (guard s t)

def session (start undo squash : σ → σ) (x : EStateM ε σ (α × Bool)) : EStateM ε σ α := fun s =>
  match x (start s) with
  | .ok r t => .ok r.1 (if r.2 then squash t else undo t)
  | .error e t => .error e (undo t)

def catching (caught : ε → Bool) (x : EStateM ε σ α) : EStateM ε σ (Except ε α) := fun s =>
  match x s with
  | .ok a t => .ok (.ok a) t
  | .error e t => if caught e then .ok (.error e) t else .error e t

section

variable {P : σ → Prop} {Q : α → σ → Prop} {R : ε → σ → Prop} {x : EStateM ε σ α}

variable {guard : σ → σ → σ} {R' : ε → σ → Prop} {Q' : α → σ → Prop}

lemma Triple.onThrow (h : Triple (· = s) x Q R)
    (hR : ∀ e t, R e t → R' e (guard s t)) : Triple (· = s) (onThrow guard x) Q R' := by
  rintro _ rfl
  have hx := h _ rfl
  rw [Lib.onThrow]
  cases hs : x _ with
  | ok a t =>
    rw [hs] at hx
    exact hx
  | error e t =>
    rw [hs] at hx
    exact hR e t hx

lemma Triple.onExit (h : Triple (· = s) x Q R)
    (hQ : ∀ a t, Q a t → Q' a (guard s t)) (hR : ∀ e t, R e t → R' e (guard s t)) :
    Triple (· = s) (onExit guard x) Q' R' := by
  rintro _ rfl
  have hx := h _ rfl
  rw [Lib.onExit]
  cases hs : x _ with
  | ok a t =>
    rw [hs] at hx
    exact hQ a t hx
  | error e t =>
    rw [hs] at hx
    exact hR e t hx

lemma Triple.session {start undo squash : σ → σ} {x : EStateM ε σ (α × Bool)} {Q : α × Bool → σ → Prop}
    (h : Triple (· = start s) x Q R)
    (hkept : ∀ a t, Q (a, true) t → Q' a (squash t)) (hdropped : ∀ a t, Q (a, false) t → Q' a (undo t))
    (hthrown : ∀ e t, R e t → R' e (undo t)) : Triple (· = s) (session start undo squash x) Q' R' := by
  rintro _ rfl
  have hx := h _ rfl
  rw [Lib.session]
  cases hs : x _ with
  | ok r t =>
    rw [hs] at hx
    obtain ⟨a, squashed⟩ := r
    cases squashed with
    | true => exact hkept a t hx
    | false => exact hdropped a t hx
  | error e t =>
    rw [hs] at hx
    exact hthrown e t hx

lemma Triple.catching {caught : ε → Bool} {Q' : Except ε α → σ → Prop} (h : Triple P x Q R)
    (hok : ∀ a t, Q a t → Q' (.ok a) t) (hcaught : ∀ e t, caught e = true → R e t → Q' (.error e) t)
    (hthrown : ∀ e t, caught e = false → R e t → R' e t) : Triple P (catching caught x) Q' R' := by
  intro s hs
  have hx := h s hs
  rw [Lib.catching]
  cases hr : x s with
  | ok a t =>
    rw [hr] at hx
    exact hok a t hx
  | error e t =>
    rw [hr] at hx
    cases hc : caught e with
    | true => simpa [hc] using hcaught e t hc hx
    | false => simpa [hc] using hthrown e t hc hx

lemma Triple.map {β : Type} {f : α → β} {Q' : β → σ → Prop} (h : Triple P x Q R) (hQ : ∀ a s, Q a s → Q' (f a) s) :
    Triple P (f <$> x) Q' R := h.bind fun a => Triple.pure (f a) (hQ a)

lemma Triple.ofExceptBind {β : Type} {r : Except ε β} {k : β → EStateM ε σ α}
    (hok : ∀ b, r = .ok b → Triple (· = s) (k b) Q R) (herror : ∀ e, r = .error e → R e s) :
    Triple (· = s) (ofExcept r >>= k) Q R := by
  rintro _ rfl
  cases r with
  | ok b => exact hok b rfl _ rfl
  | error e => exact herror e rfl

end

end XosChain.Lib
