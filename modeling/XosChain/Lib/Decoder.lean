import Mathlib.Data.List.Basic
import Mathlib.Tactic.Basic

/-! Decoders of symbol streams, which take a beginning of what is there: they find a value, meet an invalid encoding,
or run out of symbols. -/

namespace XosChain.Lib

open List

inductive Decoded (α : Type) where
  | done (a : α) (size : ℕ)
  | invalid
  | short
deriving DecidableEq

variable {σ α β : Type}

structure Decoder (σ α : Type) where
  run : List σ → Decoded α
  done_le : ∀ {b a n}, run b = .done a n → n ≤ b.length
  done_append : ∀ {b a n} (c : List σ), run b = .done a n → run (b ++ c) = .done a n
  done_take : ∀ {b a n}, run b = .done a n → run (b.take n) = .done a n
  invalid_append : ∀ {b} (c : List σ), run b = .invalid → run (b ++ c) = .invalid

namespace Decoder

def value (a : α) : Decoder σ α where
  run _ := .done a 0
  done_le h := by
    obtain ⟨-, rfl⟩ := Decoded.done.inj h
    exact Nat.zero_le _
  done_append _ h := h
  done_take h := h
  invalid_append _ h := h

def fail : Decoder σ α where
  run _ := .invalid
  done_le h := by cases h
  done_append _ h := by cases h
  done_take h := by cases h
  invalid_append _ h := h

def fixed (n : ℕ) : Decoder σ (List σ) where
  run b := if n ≤ b.length then .done (b.take n) n else .short
  done_le {b a m} h := by
    split_ifs at h with hn
    obtain ⟨-, rfl⟩ := Decoded.done.inj h
    exact hn
  done_append {b a m} c h := by
    split_ifs at h with hn
    rw [if_pos (by rw [length_append]; omega), take_append_of_le_length hn]
    exact h
  done_take {b a m} h := by
    split_ifs at h with hn
    obtain ⟨-, rfl⟩ := Decoded.done.inj h
    rw [if_pos (Nat.le_of_eq (length_take_of_le hn).symm), take_take, Nat.min_self]
    exact h
  invalid_append {b} c h := by
    split_ifs at h

def bindRun (d : Decoder σ α) (f : α → Decoder σ β) (b : List σ) : Decoded β :=
  match d.run b with
  | .done a n =>
    match (f a).run (b.drop n) with
    | .done v m => .done v (n + m)
    | .invalid => .invalid
    | .short => .short
  | .invalid => .invalid
  | .short => .short

section

variable {d : Decoder σ α} {f : α → Decoder σ β} {b : List σ}

lemma bindRun_done_iff {v : β} {k : ℕ} : bindRun d f b = .done v k ↔
    ∃ a n m, d.run b = .done a n ∧ (f a).run (b.drop n) = .done v m ∧ k = n + m := by
  rw [bindRun]
  cases hd : d.run b with
  | invalid => simp
  | short => simp
  | done a n =>
    dsimp only
    cases hf : (f a).run (b.drop n) with
    | invalid => simp_all
    | short => simp_all
    | done w m =>
      constructor
      · intro h
        obtain ⟨rfl, rfl⟩ := Decoded.done.inj h
        exact ⟨a, n, m, rfl, hf, rfl⟩
      · rintro ⟨a', n', m', ha, hv, rfl⟩
        obtain ⟨rfl, rfl⟩ := Decoded.done.inj ha
        obtain ⟨rfl, rfl⟩ := Decoded.done.inj (hf.symm.trans hv)
        rfl

lemma bindRun_invalid_iff : bindRun d f b = .invalid ↔
    d.run b = .invalid ∨ ∃ a n, d.run b = .done a n ∧ (f a).run (b.drop n) = .invalid := by
  rw [bindRun]
  cases hd : d.run b with
  | invalid => simp
  | short => simp
  | done a n =>
    cases hf : (f a).run (b.drop n) <;> simp_all

end

def bind (d : Decoder σ α) (f : α → Decoder σ β) : Decoder σ β where
  run := bindRun d f
  done_le {b v k} h := by
    obtain ⟨a, n, m, hd, hf, rfl⟩ := bindRun_done_iff.mp h
    have hn := d.done_le hd
    have hm := (f a).done_le hf
    rw [length_drop] at hm
    omega
  done_append {b v k} c h := by
    obtain ⟨a, n, m, hd, hf, rfl⟩ := bindRun_done_iff.mp h
    refine bindRun_done_iff.mpr ⟨a, n, m, d.done_append c hd, ?_, rfl⟩
    rw [drop_append_of_le_length (d.done_le hd)]
    exact (f a).done_append c hf
  done_take {b v k} h := by
    obtain ⟨a, n, m, hd, hf, rfl⟩ := bindRun_done_iff.mp h
    refine bindRun_done_iff.mpr ⟨a, n, m, ?_, ?_, rfl⟩
    · rw [take_add]
      exact d.done_append _ (d.done_take hd)
    · rw [take_add, drop_left' (length_take_of_le (d.done_le hd))]
      exact (f a).done_take hf
  invalid_append {b} c h := by
    refine bindRun_invalid_iff.mpr ?_
    rcases bindRun_invalid_iff.mp h with hd | ⟨a, n, hd, hf⟩
    · exact .inl (d.invalid_append c hd)
    · refine .inr ⟨a, n, d.done_append c hd, ?_⟩
      rw [drop_append_of_le_length (d.done_le hd)]
      exact (f a).invalid_append c hf

def times (d : Decoder σ α) : ℕ → Decoder σ Unit
  | 0 => value ()
  | n + 1 => d.bind fun _ => times d n

def all : List (Decoder σ Unit) → Decoder σ Unit
  | [] => value ()
  | d :: ds => d.bind fun _ => all ds

def ignore (d : Decoder σ α) : Decoder σ Unit := d.bind fun _ => value ()

def recorded (d : Decoder σ α) : Decoder σ (List σ) where
  run b :=
    match d.run b with
    | .done _ n => .done (b.take n) n
    | .invalid => .invalid
    | .short => .short
  done_le {b l n} h := by
    split at h
    · next a m hd =>
      obtain ⟨-, rfl⟩ := Decoded.done.inj h
      exact d.done_le hd
    · cases h
    · cases h
  done_append {b l n} c h := by
    split at h
    · next a m hd =>
      rw [d.done_append c hd, ← h]
      dsimp only
      rw [take_append_of_le_length (d.done_le hd)]
    · cases h
    · cases h
  done_take {b l n} h := by
    split at h
    · next a m hd =>
      obtain ⟨rfl, rfl⟩ := Decoded.done.inj h
      rw [d.done_take hd]
      dsimp only
      rw [take_take, Nat.min_self]
    · cases h
    · cases h
  invalid_append {b} c h := by
    split at h
    · cases h
    · next hd => rw [d.invalid_append c hd]
    · cases h

section

variable {d : Decoder σ α} {b c : List σ} {a : α} {n : ℕ}

lemma done_of_append (h : d.run (b ++ c) = .done a n) (hn : n ≤ b.length) : d.run b = .done a n := by
  have htake := d.done_take h
  rw [take_append_of_le_length hn] at htake
  have happend := d.done_append (b.drop n) htake
  rwa [take_append_drop] at happend

lemma bind_done {f : α → Decoder σ β} {v : β} {k : ℕ} (h : (d.bind f).run b = .done v k) :
    ∃ a n, d.run b = .done a n := by
  obtain ⟨a, n, m, hd, -⟩ := bindRun_done_iff.mp h
  exact ⟨a, n, hd⟩

end

end Decoder

end XosChain.Lib
