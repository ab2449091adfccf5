import XosChain.Staking.Actions

namespace XosChain.Ram

open Lib Staking

def ramAccount : AccountName := 6138663590285017088
def ramfeeAccount : AccountName := 6138663590285202592
def ramSymbol : SymbolType := ⟨1296126464⟩
def ramcoreSymbol : SymbolType := ⟨4995142087184830980⟩

inductive Side where
  | base | quote
  deriving DecidableEq

structure ExchangeState where
  supply : Asset
  base : Asset
  quote : Asset
  deriving DecidableEq

structure Pricing where
  issued : Int64 → Int64 → Int64 → Int64
  paid : Int64 → Int64 → Int64 → Int64

namespace ExchangeState

def balance (s : ExchangeState) : Side → Asset
  | .base => s.base
  | .quote => s.quote

def addToBalance (s : ExchangeState) (amount : Int64) : Side → ExchangeState
  | .base => { s with base := { s.base with amount := s.base.amount + amount } }
  | .quote => { s with quote := { s.quote with amount := s.quote.amount + amount } }

def addToSupply (s : ExchangeState) (amount : Int64) : ExchangeState :=
  { s with supply := { s.supply with amount := s.supply.amount + amount } }

def convertToExchange (s : ExchangeState) (p : Pricing) (c : Side) (input : Asset) :
    Result (ExchangeState × Asset) := do
  let issued := p.issued s.supply.amount (s.balance c).amount input.amount
  let out ← makeAsset issued s.supply.symbol
  pure ((s.addToSupply issued).addToBalance input.amount c, out)

def convertFromExchange (s : ExchangeState) (p : Pricing) (c : Side) (input : Asset) :
    Result (ExchangeState × Asset) := do
  eosioAssert (input.symbol = s.supply.symbol) "unexpected asset symbol input"
  let paid := p.paid s.supply.amount (s.balance c).amount input.amount
  let out ← makeAsset paid (s.balance c).symbol
  pure ((s.addToSupply (-input.amount)).addToBalance (-paid) c, out)

def convertOnce (s : ExchangeState) (p : Pricing) (input : Asset) (target : SymbolType) :
    Result (ExchangeState × Asset) :=
  if input.symbol ≠ s.supply.symbol then
    if input.symbol = s.base.symbol then s.convertToExchange p .base input
    else if input.symbol = s.quote.symbol then s.convertToExchange p .quote input
    else throw ⟨.eosioAssertMessageException, "assertion failure with message: invalid sell"⟩
  else
    if target = s.base.symbol then s.convertFromExchange p .base input
    else if target = s.quote.symbol then s.convertFromExchange p .quote input
    else throw ⟨.eosioAssertMessageException, "assertion failure with message: invalid conversion"⟩

def convert (s : ExchangeState) (p : Pricing) (input : Asset) (target : SymbolType) :
    Result (ExchangeState × Asset) := do
  let (s, out) ← s.convertOnce p input target
  if target ≠ out.symbol then s.convertOnce p out target else pure (s, out)

end ExchangeState

structure GlobalState where
  maxRamSize : UInt64 := 64 * 1024 * 1024 * 1024
  totalRamBytesReserved : UInt64 := 0
  totalRamStake : Int64 := 0

def GlobalState.freeRam (g : GlobalState) : UInt64 := g.maxRamSize - g.totalRamBytesReserved

structure State where
  staking : Staking.Tables
  market : ExchangeState
  global : GlobalState

def createMarket (core : SymbolType) (supply : Int64) (g : GlobalState) : ExchangeState where
  supply := ⟨100000000000000, ramcoreSymbol⟩
  base := ⟨g.freeRam.toInt64, ramSymbol⟩
  quote := ⟨supply / 1000, core⟩

section

variable (env : Staking.Env) (p : Pricing)

def setResourceLimits (account : AccountName) (row : UserResources) : Result Unit := do
  eosAssert (-1 ≤ row.ramBytes) .wasmExecutionError "invalid value for ram resource limit expected [-1,INT64_MAX]"
  eosAssert (-1 ≤ row.net.amount) .wasmExecutionError "invalid value for net resource weight expected [-1,INT64_MAX]"
  eosAssert (-1 ≤ row.cpu.amount) .wasmExecutionError "invalid value for cpu resource weight expected [-1,INT64_MAX]"
  env.setResourceLimits account row.ramBytes row.net.amount row.cpu.amount

def feeOf (amount : Int64) : Int64 := (amount + 199) / 200

def boughtRow (bytes : Int64) : Option UserResources → UserResources
  | none => ⟨⟨env.zero, env.zero⟩, bytes⟩
  | some row => { row with ramBytes := row.ramBytes + bytes }

def buyram (t : State) (payer receiver : AccountName) (quant : Asset) : Result (State × List InlineTransfer) := do
  env.requireAuth payer
  eosioAssert (quant.amount > 0) "must purchase a positive amount"
  let fee : Asset := { quant with amount := feeOf quant.amount }
  let quantAfterFee : Asset := { quant with amount := quant.amount - fee.amount }
  let inlines := ⟨payer, ramAccount, quantAfterFee, "buy ram"⟩ ::
    if fee.amount > 0 then [⟨payer, ramfeeAccount, fee, "ram fee"⟩] else []
  let (market, out) ← t.market.convert p quantAfterFee ramSymbol
  let bytesOut := out.amount
  eosioAssert (bytesOut > 0) "must reserve a positive amount"
  let row := boughtRow env bytesOut (t.staking.userres.find? receiver)
  setResourceLimits env receiver row
  pure ({
    staking := { t.staking with userres := t.staking.userres.set receiver row }
    market := market
    global := { t.global with
      totalRamBytesReserved := t.global.totalRamBytesReserved + bytesOut.toUInt64
      totalRamStake := t.global.totalRamStake + quantAfterFee.amount } }, inlines)

def buyrambytes (t : State) (payer receiver : AccountName) (bytes : UInt32) :
    Result (State × List InlineTransfer) := do
  let input ← makeAsset bytes.toUInt64.toInt64 ramSymbol
  let (_, eosout) ← t.market.convert p input env.core
  buyram env p t payer receiver eosout

def sellFee (account : AccountName) (fee : Int64) : Result (List InlineTransfer) :=
  if fee > 0 then do pure [⟨account, ramfeeAccount, ← makeAsset fee env.core, "sell ram fee"⟩] else pure []

def sellram (t : State) (account : AccountName) (bytes : Int64) : Result (State × List InlineTransfer) := do
  env.requireAuth account
  eosioAssert (bytes > 0) "cannot sell negative byte"
  let row ← Token.Tables.getRow t.staking.userres account "no resource row"
  eosioAssert (row.ramBytes ≥ bytes) "insufficient quota"
  let input ← makeAsset bytes ramSymbol
  let (market, tokensOut) ← t.market.convert p input env.core
  eosioAssert (tokensOut.amount > 1) "token amount received from selling ram is too low"
  let totalRamStake := t.global.totalRamStake - tokensOut.amount
  eosioAssert (totalRamStake ≥ 0) "error, attempt to unstake more tokens than previously staked"
  let row := { row with ramBytes := row.ramBytes - bytes }
  setResourceLimits env account row
  let inlines := ⟨ramAccount, account, tokensOut, "sell ram"⟩ :: (← sellFee env account (feeOf tokensOut.amount))
  pure ({
    staking := { t.staking with userres := t.staking.userres.set account row }
    market := market
    global := { t.global with
      totalRamBytesReserved := t.global.totalRamBytesReserved - bytes.toUInt64
      totalRamStake := totalRamStake } }, inlines)

def setram (t : State) (maxRamSize : UInt64) : Result State := do
  env.requireAuth Config.systemAccountName
  eosioAssert (t.global.maxRamSize < maxRamSize) "ram may only be increased"
  eosioAssert (maxRamSize < 1024 * 1024 * 1024 * 1024 * 1024) "ram size is unrealistic"
  eosioAssert (maxRamSize > t.global.totalRamBytesReserved) "attempt to set max below reserved"
  let delta := maxRamSize.toInt64 - t.global.maxRamSize.toInt64
  pure { t with market := t.market.addToBalance delta .base, global := { t.global with maxRamSize } }

end

inductive Action where
  | buyram (payer receiver : AccountName) (quant : Asset)
  | buyrambytes (payer receiver : AccountName) (bytes : UInt32)
  | sellram (account : AccountName) (bytes : Int64)
  | setram (maxRamSize : UInt64)
  | stake (a : Staking.Action)

def State.run (env : Staking.Env) (p : Pricing) (t : State) : Action → Result (State × List InlineTransfer)
  | .buyram payer receiver quant => buyram env p t payer receiver quant
  | .buyrambytes payer receiver bytes => buyrambytes env p t payer receiver bytes
  | .sellram account bytes => sellram env p t account bytes
  | .setram maxRamSize => do pure (← setram env t maxRamSize, [])
  | .stake a => do
    let (staking, inlines) ← env.run t.staking a
    pure ({ t with staking }, inlines)

structure System where
  token : Token.Tables
  state : State

def System.apply (env : Staking.Env) (p : Pricing) (s : System) (a : Action) :
    Result (System × List InlineTransfer) := do
  let (state, inlines) ← s.state.run env p a
  let token ← inlines.foldlM env.sendInline s.token
  pure (⟨token, state⟩, inlines)

end XosChain.Ram
