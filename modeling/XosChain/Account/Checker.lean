import Mathlib.Data.Finset.Basic
import Mathlib.Data.List.Sort
import XosChain.Account.Authority
import XosChain.Lib.FlatMap

namespace XosChain

open Lib

inductive MetaPermission where
  | level (p : PermissionLevelWeight)
  | key (k : KeyWeight)
  | wait (w : WaitWeight)
  deriving DecidableEq

def MetaPermission.rank : MetaPermission → ℕ ×ₗ ℕ
  | .level p => toLex (p.weight, 0)
  | .key k => toLex (k.weight, 1)
  | .wait w => toLex (w.weight, 2)

def Authority.metaPermissions (a : Authority) : List MetaPermission :=
  (a.waits.map MetaPermission.wait ++ a.keys.map MetaPermission.key ++ a.accounts.map MetaPermission.level).insertionSort
    (fun l r => r.rank ≤ l.rank)

inductive CacheStatus where
  | beingEvaluated
  | permissionUnsatisfied
  | permissionSatisfied
  deriving DecidableEq

abbrev PermissionCache := FlatMap (AccountName ×ₗ PermissionName) CacheStatus

def permissionStatusInCache (cached : PermissionCache) (level : PermissionLevel) : Option CacheStatus :=
  match cached.find? level.key with
  | some status => some status
  | none => cached.find? (toLex (level.actor, 0))

structure AuthorityChecker where
  permissionToAuthority : PermissionLevel → Option Authority
  recursionDepthLimit : ℕ
  providedKeys : List PublicKey
  providedPermissions : List PermissionLevel
  providedDelay : ℕ

structure Marks where
  usedKeys : Finset PublicKey
  cached : PermissionCache

namespace AuthorityChecker

variable (c : AuthorityChecker)

def visitLevel (recurse : Option (Authority → Marks → Bool × Marks)) (p : PermissionLevelWeight) (total : ℕ)
    (m : Marks) : ℕ × Marks :=
  match permissionStatusInCache m.cached p.permission with
  | some .permissionSatisfied => ((total + p.weight) % 2 ^ 32, m)
  | some _ => (total, m)
  | none =>
    match recurse, c.permissionToAuthority p.permission with
    | some satisfied, some auth =>
      let r := satisfied auth { m with cached := m.cached.set p.permission.key .beingEvaluated }
      if r.1 then
        ((total + p.weight) % 2 ^ 32, { r.2 with cached := r.2.cached.set p.permission.key .permissionSatisfied })
      else (total, { r.2 with cached := r.2.cached.set p.permission.key .permissionUnsatisfied })
    | _, _ => (total, m)

def visit (recurse : Option (Authority → Marks → Bool × Marks)) (total : ℕ) (m : Marks) : MetaPermission → ℕ × Marks
  | .wait w => (if w.waitSec * 1000000 ≤ c.providedDelay then (total + w.weight) % 2 ^ 32 else total, m)
  | .key k =>
    if k.key ∈ c.providedKeys then ((total + k.weight) % 2 ^ 32, { m with usedKeys := insert k.key m.usedKeys })
    else (total, m)
  | .level p => c.visitLevel recurse p total m

def tally (recurse : Option (Authority → Marks → Bool × Marks)) (threshold : ℕ) :
    List MetaPermission → ℕ → Marks → Bool × Marks
  | [], _, m => (false, m)
  | p :: permissions, total, m =>
    let r := c.visit recurse total m p
    if threshold ≤ r.1 then (true, r.2) else tally recurse threshold permissions r.1 r.2

def satisfiedWith (recurse : Option (Authority → Marks → Bool × Marks)) (a : Authority) (m : Marks) : Bool × Marks :=
  let r := c.tally recurse a.threshold a.metaPermissions 0 m
  if r.1 then r else (false, { r.2 with usedKeys := m.usedKeys })

def satisfiedWithin : ℕ → Authority → Marks → Bool × Marks
  | 0 => c.satisfiedWith none
  | levels + 1 => c.satisfiedWith (some (satisfiedWithin levels))

def initialCache : PermissionCache :=
  c.providedPermissions.foldl (fun cached l => cached.set l.key .permissionSatisfied) FlatMap.empty

def topEval : Option (Authority → Marks → Bool × Marks) :=
  match c.recursionDepthLimit with
  | 0 => none
  | levels + 1 => some (c.satisfiedWithin levels)

def satisfied (level : PermissionLevel) (usedKeys : Finset PublicKey) : Bool × Finset PublicKey :=
  let r := c.visitLevel c.topEval ⟨level, 1⟩ 0 ⟨usedKeys, c.initialCache⟩
  (0 < r.1, r.2.usedKeys)

end AuthorityChecker

end XosChain
