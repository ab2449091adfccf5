import XosChain.Lib.FlatMap
import XosChain.Token.Asset

namespace XosChain.Token

open Lib

structure CurrencyStats where
  supply : Asset
  maxSupply : Asset
  issuer : AccountName
  deriving DecidableEq

structure Tables where
  stat : FlatMap SymbolName CurrencyStats := FlatMap.empty
  accounts : FlatMap (AccountName ×ₗ SymbolName) Asset := FlatMap.empty

structure Env where
  self : AccountName
  hasAuth : AccountName → Bool
  isAccount : AccountName → Bool := fun _ => true
  notified : AccountName → Result Unit := fun _ => pure ()
  actsFor : AccountName → Result Unit := fun _ => pure ()

def Env.requireAuth (env : Env) (account : AccountName) : Result Unit :=
  eosAssert (env.hasAuth account = true) .missingAuthException s!"missing authority of {account}"

namespace Tables

def getRow {κ ν : Type} [LinearOrder κ] (table : FlatMap κ ν) (key : κ) (message : String) : Result ν :=
  match table.find? key with
  | some row => pure row
  | none => throw ⟨.eosioAssertMessageException, s!"assertion failure with message: {message}"⟩

def create (env : Env) (t : Tables) (issuer : AccountName) (maximumSupply : Asset) : Result Tables := do
  env.requireAuth env.self
  eosioAssert (maximumSupply.symbol.isValid = true) "invalid symbol name"
  eosioAssert (maximumSupply.isValid = true) "invalid supply"
  eosioAssert (maximumSupply.amount > 0) "max-supply must be positive"
  eosioAssert (t.stat.find? maximumSupply.symbol.name = none) "token with symbol already exists"
  pure { t with stat := t.stat.set maximumSupply.symbol.name ⟨⟨0, maximumSupply.symbol⟩, maximumSupply, issuer⟩ }

def subBalance (t : Tables) (owner : AccountName) (value : Asset) : Result Tables := do
  let balance ← getRow t.accounts (toLex (owner, value.symbol.name)) "no balance object found"
  eosioAssert (balance.amount ≥ value.amount) "overdrawn balance"
  if balance.amount = value.amount then
    pure { t with accounts := t.accounts.erase (toLex (owner, value.symbol.name)) }
  else
    let balance ← balance.sub value
    pure { t with accounts := t.accounts.set (toLex (owner, value.symbol.name)) balance }

def addBalance (t : Tables) (owner : AccountName) (value : Asset) : Result Tables :=
  match t.accounts.find? (toLex (owner, value.symbol.name)) with
  | none => pure { t with accounts := t.accounts.set (toLex (owner, value.symbol.name)) value }
  | some balance => do
    let balance ← balance.add value
    pure { t with accounts := t.accounts.set (toLex (owner, value.symbol.name)) balance }

def transfer (env : Env) (t : Tables) (sender recipient : AccountName) (quantity : Asset) (memo : String) :
    Result Tables := do
  eosioAssert (sender ≠ recipient) "cannot transfer to self"
  env.requireAuth sender
  eosioAssert (env.isAccount recipient = true) "to account does not exist"
  let st ← getRow t.stat quantity.symbol.name "unable to find key"
  eosioAssert (quantity.isValid = true) "invalid quantity"
  eosioAssert (quantity.amount > 0) "must transfer positive quantity"
  eosioAssert (quantity.symbol = st.supply.symbol) "symbol precision mismatch"
  eosioAssert (memo.utf8ByteSize ≤ 256) "memo has more than 256 bytes"
  let t ← t.subBalance sender quantity
  let t ← t.addBalance recipient quantity
  env.notified sender
  env.notified recipient
  pure t

def issue (env : Env) (t : Tables) (recipient : AccountName) (quantity : Asset) (memo : String) : Result Tables := do
  eosioAssert (quantity.symbol.isValid = true) "invalid symbol name"
  eosioAssert (memo.utf8ByteSize ≤ 256) "memo has more than 256 bytes"
  eosioAssert ((t.stat.find? quantity.symbol.name).isSome = true)
    "token with symbol does not exist, create token before issue"
  let st ← getRow t.stat quantity.symbol.name "unable to find key"
  env.requireAuth st.issuer
  eosioAssert (quantity.isValid = true) "invalid quantity"
  eosioAssert (quantity.amount > 0) "must issue positive quantity"
  eosioAssert (quantity.symbol = st.supply.symbol) "symbol precision mismatch"
  eosioAssert (quantity.amount ≤ st.maxSupply.amount - st.supply.amount) "quantity exceeds available supply"
  let supply ← st.supply.add quantity
  let t := { t with stat := t.stat.set quantity.symbol.name { st with supply } }
  let t ← t.addBalance st.issuer quantity
  if recipient ≠ st.issuer then do
    env.actsFor st.issuer
    t.transfer { env with hasAuth := fun a => a = st.issuer } st.issuer recipient quantity memo
  else pure t

end Tables

inductive Action where
  | create (issuer : AccountName) (maximumSupply : Asset)
  | issue (recipient : AccountName) (quantity : Asset) (memo : String)
  | transfer (sender recipient : AccountName) (quantity : Asset) (memo : String)

def Action.symbol : Action → SymbolType
  | create _ maximumSupply => maximumSupply.symbol
  | issue _ quantity _ => quantity.symbol
  | transfer _ _ quantity _ => quantity.symbol

def Tables.apply (env : Env) (t : Tables) : Action → Result Tables
  | .create issuer maximumSupply => t.create env issuer maximumSupply
  | .issue recipient quantity memo => t.issue env recipient quantity memo
  | .transfer sender recipient quantity memo => t.transfer env sender recipient quantity memo

inductive TokenRun : Tables → Prop
  | start : TokenRun {}
  | step {t t' : Tables} (env : Env) (a : Action) (h : TokenRun t) (hs : t.apply env a = .ok t') : TokenRun t'

end XosChain.Token
