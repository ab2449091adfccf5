import Mathlib.Data.List.DropRight
import Mathlib.Data.Prod.Lex
import XosChain.Basic

namespace XosChain

def charmap : List Char :=
  ['.', '1', '2', '3', '4', '5', 'a', 'b', 'c', 'd', 'e', 'f', 'g', 'h', 'i', 'j', 'k', 'l', 'm', 'n', 'o', 'p', 'q',
    'r', 's', 't', 'u', 'v', 'w', 'x', 'y', 'z']

def nameChar (value i : ℕ) : Char :=
  charmap.getD (if i = 12 then value % 16 else value / 2 ^ (64 - 5 * (i + 1)) % 32) '.'

def nameToString (value : ℕ) : List Char := ((List.range 13).map (nameChar value)).rdropWhile (· = '.')

def hasEosioDot (value : ℕ) : Bool := ['e', 'o', 's', 'i', 'o', '.'].isPrefixOf (nameToString value)

structure PermissionLevel where
  actor : AccountName
  permission : PermissionName
  deriving DecidableEq

def PermissionLevel.key (l : PermissionLevel) : AccountName ×ₗ PermissionName := toLex (l.actor, l.permission)

structure KeyWeight where
  key : PublicKey
  weight : ℕ
  deriving DecidableEq

structure PermissionLevelWeight where
  permission : PermissionLevel
  weight : ℕ
  deriving DecidableEq

structure WaitWeight where
  waitSec : ℕ
  weight : ℕ
  deriving DecidableEq

structure Authority where
  threshold : ℕ := 0
  keys : List KeyWeight := []
  accounts : List PermissionLevelWeight := []
  waits : List WaitWeight := []
  deriving DecidableEq

def packedKeySize : ℕ := 34

def billableSize (value : ℕ) : ℕ := (value + 16 - 1) / 16 * 16

namespace Authority

def ofKey (k : PublicKey) : Authority := { threshold := 1, keys := [⟨k, 1⟩] }

def getBillableSize (a : Authority) : ℕ :=
  a.accounts.length * billableSize 24 + a.waits.length * billableSize 16 + a.keys.length * (billableSize 8 + packedKeySize)

def totalWeight (a : Authority) : ℕ :=
  (a.keys.map (·.weight)).sum + (a.accounts.map (·.weight)).sum + (a.waits.map (·.weight)).sum

def validate (a : Authority) : Prop :=
  a.keys.length + a.accounts.length + a.waits.length ≤ 2 ^ 16 ∧ a.threshold ≠ 0 ∧
    (a.keys.map (·.key)).IsChain (· < ·) ∧ (a.accounts.map (·.permission.key)).IsChain (· < ·) ∧
    (∀ w ∈ a.waits.head?, w.waitSec ≠ 0) ∧ (a.waits.map (·.waitSec)).IsChain (· < ·) ∧
    a.threshold ≤ a.totalWeight

instance (a : Authority) : Decidable a.validate := by
  unfold validate
  infer_instance

end Authority

end XosChain
