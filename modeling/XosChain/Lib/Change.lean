import Mathlib.Tactic

namespace XosChain.Lib

inductive Change (V : Type) where
  | nop
  | new
  | upd (was : V)
  | del (was : V)
  deriving DecidableEq

namespace Change

variable {V : Type}

def Valid : Change V → Option V → Option V → Prop
  | nop, a, b => a = b
  | new, a, b => a = none ∧ b ≠ none
  | upd x, a, b => a = some x ∧ b ≠ none
  | del x, a, b => a = some x ∧ b = none

def merge : Change V → Change V → Change V
  | nop, d => d
  | new, del _ => nop
  | upd x, del _ => del x
  | c, _ => c

def Composable : Change V → Change V → Prop
  | nop, _ => True
  | _, nop => True
  | new, upd _ => True
  | new, del _ => True
  | upd _, upd _ => True
  | upd _, del _ => True
  | _, _ => False

lemma Valid.composable {c d : Change V} {a m b : Option V} (h : c.Valid a m) (h' : d.Valid m b)
    (hn : ∀ x, c = del x → d ≠ new) : c.Composable d := by
  cases c <;> cases d <;> simp_all [Valid, Composable]

lemma Valid.merge {c d : Change V} {a m b : Option V} (h : c.Valid a m) (h' : d.Valid m b)
    (hn : c.Composable d) : (c.merge d).Valid a b := by
  cases c <;> cases d <;> simp_all [Valid, Composable, Change.merge]

lemma merge_nop (c : Change V) : c.merge nop = c := by
  cases c <;> rfl

end Change

end XosChain.Lib
