import XosChain.Governance.Packing
import XosChain.Lib.HandleMap
import XosChain.Token.Asset

/-! A table of a contract with its secondary indices, over rows and index entries that the chain keeps in order under
stable handles. An instance caches the objects it has read or written, with the handles it knows of their entries. -/

namespace XosChain.MultiIndex

open Lib Raw

abbrev Key := Fin (2 ^ 64)

def maxStackBufferSize : ℕ := 512
def noAvailablePrimaryKey : ℕ := 2 ^ 64 - 2
def unsetNextPrimaryKey : ℕ := 2 ^ 64 - 1

structure Schema (T : Type) where
  pack : T → Bytes
  unpack : Bytes → Option T
  unpack_pack : ∀ x, unpack (pack x) = some x
  primaryKey : T → Key
  count : ℕ
  count_le : count ≤ 16
  Secondary : Fin count → Type
  order : ∀ i, LinearOrder (Secondary i)
  extract : ∀ i, T → Secondary i

attribute [instance] Schema.order

section

variable {T : Type} (S : Schema T)

structure Item where
  obj : T
  primaryItr : ℕ
  iters : Fin S.count → Option ℕ := fun _ => none

structure State where
  primary : HandleMap Key Bytes
  secondary : ∀ i, HandleMap Key (S.Secondary i)
  items : List (Item S) := []
  nextPrimaryKey : ℕ := unsetNextPrimaryKey

structure Env where
  reread : Bytes → Bytes := id

variable {S}

def byKey {ν : Type} (k : Key) (_ : ν) : Key := k

def bySecondary (i : Fin S.count) (k : Key) (v : S.Secondary i) : S.Secondary i ×ₗ Key := toLex (v, k)

section

variable {ν O : Type} [LinearOrder O]

def invalidIterator : Thrown := ⟨.invalidTableIterator, "invalid iterator"⟩

def dbGet (m : HandleMap Key ν) (itr : ℕ) : Result ν :=
  match m.atHandle itr with
  | some (_, v) => pure v
  | none => throw invalidIterator

def dbNext (m : HandleMap Key ν) (ord : Key → ν → O) (itr : Option ℕ) : Result (Option (Key × ℕ)) :=
  match itr.bind m.atHandle with
  | some (k, v) => pure (m.first ord fun j w => ord k v < ord j w)
  | none => throw invalidIterator

def dbPrevious (m : HandleMap Key ν) (ord : Key → ν → O) (itr : Option ℕ) : Result (Option (Key × ℕ)) :=
  match itr.bind m.atHandle with
  | some (k, v) => pure (m.last ord fun j w => ord j w < ord k v)
  | none => throw invalidIterator

def dbUpdate (m : HandleMap Key ν) (itr : Option ℕ) (v : ν) : Result (HandleMap Key ν) :=
  match itr.bind fun h => m.updateAt h v with
  | some m => pure m
  | none => throw invalidIterator

def dbRemove (m : HandleMap Key ν) (itr : ℕ) : Result (HandleMap Key ν) :=
  match m.removeAt itr with
  | some m => pure m
  | none => throw invalidIterator

def dbStore (m : HandleMap Key ν) (k : Key) (v : ν) : Result (HandleMap Key ν) := do
  eosAssert (m.find k = none) .logicError "could not insert object, most likely a uniqueness constraint was violated"
  pure (m.store k v)

end

section

variable (env : Env) (s : State S)

def State.itemAt (h : ℕ) : Result (Item S) :=
  match s.items.find? fun it => it.primaryItr = h with
  | some it => pure it
  | none => throw ⟨.undefinedBehavior, "the item is gone"⟩

def deref (it : Option (Item S)) : Result (Item S) :=
  match it with
  | some it => pure it
  | none => throw ⟨.undefinedBehavior, "end iterator"⟩

def readObject (bytes : Bytes) : Result T :=
  match S.unpack (if maxStackBufferSize < bytes.length then env.reread bytes else bytes) with
  | some x => pure x
  | none => throw ⟨.eosioAssertMessageException, "assertion failure with message: read"⟩

def loadObjectByPrimaryIterator (itr : ℕ) : Result (Item S × State S) :=
  match s.items.find? fun it => it.primaryItr = itr with
  | some it => pure (it, s)
  | none => do
    let bytes ← dbGet s.primary itr
    let obj ← readObject (S := S) env bytes
    let it := { obj, primaryItr := itr }
    pure (it, { s with items := it :: s.items })

def arrive : Option (Key × ℕ) → Result (Option (Item S) × State S)
  | none => pure (none, s)
  | some (_, itr) => do
    let (it, s) ← loadObjectByPrimaryIterator env s itr
    pure (some it, s)

def find (k : Key) : Result (Option (Item S) × State S) :=
  match s.items.find? fun it => S.primaryKey it.obj = k with
  | some it => pure (some it, s)
  | none => arrive env s ((s.primary.handle k).map fun h => (k, h))

def get (k : Key) (errorMsg : String) : Result (Item S × State S) := do
  let (result, s) ← find env s k
  eosioAssert (result.isSome = true) errorMsg
  pure (← deref result, s)

def lowerBound (k : Key) : Result (Option (Item S) × State S) :=
  arrive env s (s.primary.first byKey fun j _ => k ≤ j)

def upperBound (k : Key) : Result (Option (Item S) × State S) :=
  arrive env s (s.primary.first byKey fun j _ => k < j)

def increment (h : ℕ) : Result (Option (Item S) × State S) := do
  let it ← s.itemAt h
  arrive env s (← dbNext s.primary byKey (some it.primaryItr))

def previousOf (h : Option ℕ) : Result (Option (Key × ℕ)) :=
  match h with
  | none => do
    let prev := s.primary.last byKey fun _ _ => True
    eosioAssert (prev.isSome = true) "cannot decrement end iterator when the table is empty"
    pure prev
  | some h => do
    let it ← s.itemAt h
    let prev ← dbPrevious s.primary byKey (some it.primaryItr)
    eosioAssert (prev.isSome = true) "cannot decrement iterator at beginning of table"
    pure prev

def decrement (h : Option ℕ) : Result (Option (Item S) × State S) := do
  arrive env s (← previousOf s h)

def reserved (k : Key) : ℕ := if k.val ≥ noAvailablePrimaryKey then noAvailablePrimaryKey else k.val + 1

def nextFromLast : Result (State S) := do
  if s.nextPrimaryKey = unsetNextPrimaryKey then
    let (first, s) ← lowerBound env s (Name.ofNat 0)
    if first.isNone then pure { s with nextPrimaryKey := 0 }
    else
      let (last, s) ← decrement env s none
      pure { s with nextPrimaryKey := reserved (S.primaryKey (← deref last).obj) }
  else pure s

def availablePrimaryKey : Result (ℕ × State S) := do
  let s ← nextFromLast env s
  eosioAssert (s.nextPrimaryKey < noAvailablePrimaryKey) "next primary key in table is at autoincrement limit"
  pure (s.nextPrimaryKey, s)

def raisedNext (pk : Key) : ℕ := if pk.val ≥ s.nextPrimaryKey then reserved pk else s.nextPrimaryKey

def emplace (x : T) : Result (Item S × State S) := do
  let pk := S.primaryKey x
  let primary ← dbStore s.primary pk (S.pack x)
  eosAssert (∀ i, (s.secondary i).find pk = none) .logicError
    "could not insert object, most likely a uniqueness constraint was violated"
  let it := { obj := x, primaryItr := s.primary.fresh, iters := fun i => some (s.secondary i).fresh }
  pure (it, { primary
              secondary := fun i => (s.secondary i).store pk (S.extract i x)
              items := it :: s.items
              nextPrimaryKey := raisedNext s pk })

def knownItr (it : Item S) (i : Fin S.count) : Option ℕ :=
  match it.iters i with
  | some h => some h
  | none => (s.secondary i).handle (S.primaryKey it.obj)

def changed (x y : T) (i : Fin S.count) : Bool := S.extract i x ≠ S.extract i y

def updateIndex (it : Item S) (y : T) (i : Fin S.count) : Option (HandleMap Key (S.Secondary i)) :=
  if changed it.obj y i then (knownItr s it i).bind fun h => (s.secondary i).updateAt h (S.extract i y)
  else some (s.secondary i)

def modify (h : ℕ) (updater : T → T) : Result (State S) := do
  let it ← s.itemAt h
  let y := updater it.obj
  eosioAssert (S.primaryKey it.obj = S.primaryKey y) "updater cannot change primary key when modifying an object"
  let primary ← dbUpdate s.primary (some it.primaryItr) (S.pack y)
  eosAssert (∀ i, (updateIndex s it y i).isSome = true) .invalidTableIterator "invalid iterator"
  let it' := { it with obj := y, iters := fun i => if changed it.obj y i then knownItr s it i else it.iters i }
  pure { primary
         secondary := fun i => (updateIndex s it y i).getD (s.secondary i)
         items := s.items.map fun c => if c.primaryItr = h then it' else c
         nextPrimaryKey := raisedNext s (S.primaryKey y) }

def removeIndex (it : Item S) (i : Fin S.count) : Option (HandleMap Key (S.Secondary i)) :=
  match knownItr s it i with
  | some h => (s.secondary i).removeAt h
  | none => some (s.secondary i)

def erase (h : ℕ) : Result (State S) := do
  let it ← s.itemAt h
  let pk := S.primaryKey it.obj
  eosioAssert (∃ c ∈ s.items, S.primaryKey c.obj = pk) "attempt to remove object that was not in multi_index"
  let primary ← dbRemove s.primary it.primaryItr
  eosAssert (∀ i, (removeIndex s it i).isSome = true) .invalidTableIterator "invalid iterator"
  pure { s with
    primary
    secondary := fun i => (removeIndex s it i).getD (s.secondary i)
    items := s.items.eraseP fun c => S.primaryKey c.obj = pk }

section

variable (i : Fin S.count)

def State.setItr (h : ℕ) (itr : Option ℕ) : State S :=
  { s with items := s.items.map fun c =>
      if c.primaryItr = h then { c with iters := Function.update c.iters i itr } else c }

def idxArrive : Option (Key × ℕ) → Result (Option (Item S) × State S)
  | none => pure (none, s)
  | some (pk, itr) => do
    let (found, s) ← find env s pk
    let it ← deref found
    pure (some { it with iters := Function.update it.iters i (some itr) }, s.setItr i it.primaryItr (some itr))

def idxLowerBound (key : S.Secondary i) : Result (Option (Item S) × State S) :=
  idxArrive env s i ((s.secondary i).first (bySecondary i) fun _ v => key ≤ v)

def idxUpperBound (key : S.Secondary i) : Result (Option (Item S) × State S) :=
  idxArrive env s i ((s.secondary i).first (bySecondary i) fun _ v => key < v)

def idxFind (key : S.Secondary i) : Result (Option (Item S) × State S) := do
  let (lb, s) ← idxLowerBound env s i key
  pure (lb.filter fun it => key = S.extract i it.obj, s)

def idxGet (key : S.Secondary i) (errorMsg : String) : Result (Item S × State S) := do
  let (result, s) ← idxFind env s i key
  eosioAssert (result.isSome = true) errorMsg
  pure (← deref result, s)

def idxIncrement (h : ℕ) : Result (Option (Item S) × State S) := do
  let it ← s.itemAt h
  let itr := knownItr s it i
  let s := s.setItr i h itr
  idxArrive env s i (← dbNext (s.secondary i) (bySecondary i) itr)

def idxDecrement (h : Option ℕ) : Result (Option (Item S) × State S) :=
  match h with
  | none => do
    let prev := (s.secondary i).last (bySecondary i) fun _ _ => True
    eosioAssert (prev.isSome = true) "cannot decrement end iterator when the index is empty"
    idxArrive env s i prev
  | some h => do
    let it ← s.itemAt h
    let itr := knownItr s it i
    let s := s.setItr i h itr
    let prev ← dbPrevious (s.secondary i) (bySecondary i) itr
    eosioAssert (prev.isSome = true) "cannot decrement iterator at beginning of index"
    idxArrive env s i prev

end

end

variable (S) in
inductive Op where
  | emplace (x : T)
  | modify (h : ℕ) (updater : T → T)
  | erase (h : ℕ)
  | find (k : Key)
  | get (k : Key) (errorMsg : String)
  | lowerBound (k : Key)
  | upperBound (k : Key)
  | increment (h : ℕ)
  | decrement (h : Option ℕ)
  | availablePrimaryKey
  | idxFind (i : Fin S.count) (key : S.Secondary i)
  | idxGet (i : Fin S.count) (key : S.Secondary i) (errorMsg : String)
  | idxLowerBound (i : Fin S.count) (key : S.Secondary i)
  | idxUpperBound (i : Fin S.count) (key : S.Secondary i)
  | idxIncrement (i : Fin S.count) (h : ℕ)
  | idxDecrement (i : Fin S.count) (h : Option ℕ)

inductive Outcome (T : Type) where
  | row (r : Option (ℕ × T))
  | key (k : ℕ)
  | done

def Item.view (it : Item S) : ℕ × T := (it.primaryItr, it.obj)

def atRow (r : Result (Option (Item S) × State S)) : Result (Outcome T × State S) :=
  r.map fun r => (.row (r.1.map Item.view), r.2)

def atItem (r : Result (Item S × State S)) : Result (Outcome T × State S) :=
  r.map fun r => (.row (some r.1.view), r.2)

def State.apply (env : Env) (s : State S) : Op S → Result (Outcome T × State S)
  | .emplace x => atItem (emplace s x)
  | .modify h updater => (modify s h updater).map fun s => (.done, s)
  | .erase h => (erase s h).map fun s => (.done, s)
  | .find k => atRow (find env s k)
  | .get k errorMsg => atItem (get env s k errorMsg)
  | .lowerBound k => atRow (lowerBound env s k)
  | .upperBound k => atRow (upperBound env s k)
  | .increment h => atRow (increment env s h)
  | .decrement h => atRow (decrement env s h)
  | .availablePrimaryKey => (availablePrimaryKey env s).map fun r => (.key r.1, r.2)
  | .idxFind i key => atRow (idxFind env s i key)
  | .idxGet i key errorMsg => atItem (idxGet env s i key errorMsg)
  | .idxLowerBound i key => atRow (idxLowerBound env s i key)
  | .idxUpperBound i key => atRow (idxUpperBound env s i key)
  | .idxIncrement i h => atRow (idxIncrement env s i h)
  | .idxDecrement i h => atRow (idxDecrement env s i h)

end

end XosChain.MultiIndex
