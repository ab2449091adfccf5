import XosChain.Controller.Switch

namespace XosChain.Controller

open Lib Header Fork

structure Sessions (δ : Type) where
  revision : ℕ
  contents : δ
  undos : List δ

structure BlockSemantics (δ : Type) where
  apply : BlockId → δ → Result δ
  isFc_of_error : ∀ {i : BlockId} {d : δ} {e : Thrown}, apply i d = .error e → e.isFc = true

namespace Sessions

variable {δ : Type}

def push (s : Sessions δ) (d : δ) : Sessions δ := ⟨s.revision + 1, d, s.contents :: s.undos⟩

def undo (s : Sessions δ) : Sessions δ :=
  match s.undos with
  | [] => s
  | d :: undos => ⟨s.revision - 1, d, undos⟩

end Sessions

variable {δ : Type}

def applyBlock (sem : BlockSemantics δ) (b : BlockState) : Step (Sessions δ) Unit := do
  match sem.apply b.id (← get).store.contents with
  | .ok d => modify fun c => { c with store := c.store.push d }
  | .error e => throw e

def replay (sem : BlockSemantics δ) (d0 : δ) : List BlockId → Result δ
  | [] => .ok d0
  | i :: l => replay sem d0 l >>= sem.apply i

def Synced (sem : BlockSemantics δ) (d0 : δ) : List BlockId → Sessions δ → Prop
  | [], s => s.contents = d0
  | [i], s => sem.apply i d0 = .ok s.contents
  | i :: j :: l, s => ∃ d undos, s.undos = d :: undos ∧ sem.apply i d = .ok s.contents ∧ Synced sem d0 (j :: l) s.undo

section

variable {sem : BlockSemantics δ} {d0 d : δ} {i j : BlockId} {l above : List BlockId} {s : Sessions δ}

lemma replay_of_append (h : replay sem d0 (above ++ l) = .ok d) : ∃ d', replay sem d0 l = .ok d' := by
  induction above generalizing d with
  | nil => exact ⟨d, h⟩
  | cons i above ih =>
    obtain ⟨d', h', _⟩ := bind_ok h
    exact ih h'

lemma Synced.undo (h : Synced sem d0 (i :: j :: l) s) : Synced sem d0 (j :: l) s.undo := by
  obtain ⟨_, _, _, _, h⟩ := h
  exact h

lemma Synced.push (h : Synced sem d0 l s) (hl : l ≠ []) (ha : sem.apply i s.contents = .ok d) :
    Synced sem d0 (i :: l) (s.push d) := by
  obtain ⟨j, l, rfl⟩ := List.exists_cons_of_ne_nil hl
  exact ⟨s.contents, s.undos, rfl, ha, h⟩

lemma Synced.replay (h : Synced sem d0 l s) : replay sem d0 l = .ok s.contents := by
  induction l generalizing s with
  | nil => exact congrArg Except.ok (show s.contents = d0 from h).symm
  | cons i l ih =>
    refine result_bind.mpr ?_
    cases l with
    | nil => exact ⟨d0, rfl, h⟩
    | cons j l =>
      obtain ⟨d, undos, hu, ha, h⟩ := h
      have hd : s.undo.contents = d := by rw [Sessions.undo, hu]
      exact ⟨d, hd ▸ ih h, ha⟩

end

end XosChain.Controller
