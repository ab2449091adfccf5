import Mathlib.Data.List.MinMax
import XosChain.Staking.Actions

namespace XosChain.SystemContract

open Lib Staking Config FlatMap

def namesAccount : AccountName := 6138663588137709568
def bpayAccount : AccountName := 6138663581940940800
def vpayAccount : AccountName := 6138663592678359040
def savingAccount : AccountName := 6138663590826845888
def minPervoteDailyPay : Int64 := 1000000
def blocksPerDay : UInt32 := 2 * 24 * 3600
def usecondsPerDay : UInt64 := 24 * 3600 * 1000000

structure ProducerInfo where
  isActive : Bool := true
  unpaidBlocks : UInt32 := 0
  lastClaimTime : UInt64 := 0
  deriving DecidableEq

structure NameBid where
  newname : AccountName
  highBidder : AccountName
  highBid : Int64
  lastBidTime : UInt64
  deriving DecidableEq

def NameBid.byHighBid (b : NameBid) : UInt64 := (-b.highBid).toUInt64

structure GlobalState where
  lastProducerScheduleUpdate : UInt32 := 0
  lastPervoteBucketFill : UInt64 := 0
  pervoteBucket : Int64 := 0
  perblockBucket : Int64 := 0
  totalUnpaidBlocks : UInt32 := 0
  lastNameClose : UInt32 := 0
  deriving DecidableEq

structure State where
  global : GlobalState := {}
  producers : FlatMap AccountName ProducerInfo := empty
  bids : FlatMap AccountName NameBid := empty
  userres : FlatMap AccountName UserResources := empty

structure Inflation where
  newTokens : Int64
  toSavings : Int64
  toPerBlockPay : Int64
  toPerVotePay : Int64

def Inflation.ofNewTokens (newTokens : Int64) : Inflation :=
  let toProducers := newTokens / 5
  let toPerBlockPay := toProducers / 4
  ⟨newTokens, newTokens - toProducers, toPerBlockPay, toProducers - toPerBlockPay⟩

structure Env extends toStaking : Staking.Env where
  currentTime : UInt64
  afterEpoch : 946684800000000 ≤ currentTime
  threshActivatedStakeTime : UInt64 := 1
  updateElectedProducers : Result Unit := pure ()
  inflation : Int64 → UInt64 → Inflation := fun _ _ => .ofNewTokens 0
  perVotePay : Int64 := 0

lemma firstDay_afterEpoch : (946684800000000 : UInt64) ≤ 1600000000000000 := by decide

section

variable (env : Env) (s : State)

def countBlock (producer : AccountName) : State :=
  match s.producers.find? producer with
  | none => s
  | some p => { s with
      global := { s.global with totalUnpaidBlocks := s.global.totalUnpaidBlocks + 1 }
      producers := s.producers.set producer { p with unpaidBlocks := p.unpaidBlocks + 1 } }

def State.firstBid : Option NameBid := s.bids.values.argmin fun b => toLex (b.byHighBid.toNat, b.newname)

def Env.stakeActivated : Prop :=
  env.threshActivatedStakeTime > 0 ∧ env.currentTime - env.threshActivatedStakeTime > 14 * usecondsPerDay

instance : Decidable env.stakeActivated := inferInstanceAs (Decidable (_ ∧ _))

def NameBid.outdated (b : NameBid) : Prop := b.lastBidTime < env.currentTime - usecondsPerDay

instance (b : NameBid) : Decidable (b.outdated env) := inferInstanceAs (Decidable (_ < _))

def closeName (timestamp : UInt32) : State :=
  match s.firstBid with
  | none => s
  | some b =>
    if b.highBid > 0 ∧ b.outdated env ∧ env.stakeActivated then { s with
      global := { s.global with lastNameClose := timestamp }
      bids := s.bids.set b.newname { b with highBid := -b.highBid } }
    else s

def startPresses : State :=
  if s.global.lastPervoteBucketFill = 0 then
    { s with global := { s.global with lastPervoteBucketFill := env.currentTime } }
  else s

def onblock (timestamp : UInt32) (producer : AccountName) : Result State := do
  env.requireAuth systemAccountName
  if env.activated then
    let s := countBlock (startPresses env s) producer
    if timestamp - s.global.lastProducerScheduleUpdate > 120 then
      env.updateElectedProducers
      let s := { s with global := { s.global with lastProducerScheduleUpdate := timestamp } }
      if timestamp - s.global.lastNameClose > blocksPerDay then pure (closeName env s timestamp) else pure s
    else pure s
  else pure s

end

inductive Inline where
  | issue (recipient : AccountName) (quantity : Asset) (memo : String)
  | transfer (t : InlineTransfer)

def Env.sendInline (env : Env) (t : Token.Tables) : Inline → Result Token.Tables
  | .issue recipient quantity memo => do
    env.actsFor systemAccountName
    t.issue { env.toStaking.toEnv with hasAuth := fun a => a = systemAccountName } recipient quantity memo
  | .transfer i => env.toStaking.sendInline t i

section

variable (env : Env)

def mint (i : Inflation) : Result (List Inline) := do
  let system := systemAccountName
  pure [.issue system (← makeAsset i.newTokens env.core) "issue tokens for producer pay and savings",
    .transfer ⟨system, savingAccount, ← makeAsset i.toSavings env.core, "unallocated inflation"⟩,
    .transfer ⟨system, bpayAccount, ← makeAsset i.toPerBlockPay env.core, "fund per-block bucket"⟩,
    .transfer ⟨system, vpayAccount, ← makeAsset i.toPerVotePay env.core, "fund per-vote bucket"⟩]

def fillDue (g : GlobalState) : Bool := env.currentTime - g.lastPervoteBucketFill > 0 && g.lastPervoteBucketFill > 0

def inflationSince (g : GlobalState) (supply : Int64) : Inflation :=
  env.inflation supply (env.currentTime - g.lastPervoteBucketFill)

def mintDue (g : GlobalState) (supply : Int64) : Result (List Inline) :=
  if fillDue env g then mint env (inflationSince env g supply) else pure []

def fillBuckets (g : GlobalState) (supply : Int64) : GlobalState :=
  if fillDue env g then
    let i := inflationSince env g supply
    { g with
      pervoteBucket := g.pervoteBucket + i.toPerVotePay
      perblockBucket := g.perblockBucket + i.toPerBlockPay
      lastPervoteBucketFill := env.currentTime }
  else g

def perBlockPay (bucket : Int64) (unpaid total : UInt32) : Int64 :=
  if total > 0 then bucket * unpaid.toUInt64.toInt64 / total.toUInt64.toInt64 else 0

def payFrom (account owner : AccountName) (pay : Int64) (memo : String) : Result (List Inline) :=
  if pay > 0 then do pure [.transfer ⟨account, owner, ← makeAsset pay env.core, memo⟩] else pure []

def claimrewards (token : Token.Tables) (s : State) (owner : AccountName) : Result (State × List Inline) := do
  env.requireAuth owner
  let prod ← Token.Tables.getRow s.producers owner "unable to find key"
  eosioAssert (prod.isActive = true) "producer does not have an active key"
  eosioAssert (env.activated = true) ("cannot claim rewards until the chain is activated " ++
    "(at least 15% of all tokens participate in voting)")
  eosioAssert (env.currentTime - prod.lastClaimTime > usecondsPerDay) "already claimed rewards within past day"
  let st ← Token.Tables.getRow token.stat env.core.name "unable to find key"
  let minted ← mintDue env s.global st.supply.amount
  let g := fillBuckets env s.global st.supply.amount
  let blockPay := perBlockPay g.perblockBucket prod.unpaidBlocks g.totalUnpaidBlocks
  let votePay := if env.perVotePay < minPervoteDailyPay then 0 else env.perVotePay
  let paid ← payFrom env bpayAccount owner blockPay "producer block pay"
  let votesPaid ← payFrom env vpayAccount owner votePay "producer vote pay"
  pure ({ s with
    global := { g with
      pervoteBucket := g.pervoteBucket - votePay
      perblockBucket := g.perblockBucket - blockPay
      totalUnpaidBlocks := g.totalUnpaidBlocks - prod.unpaidBlocks }
    producers := s.producers.set owner { prod with lastClaimTime := env.currentTime, unpaidBlocks := 0 } },
    minted ++ paid ++ votesPaid)

def regproducer (s : State) (producer : AccountName) (producerKey : PublicKey) (url : String) : Result State := do
  eosioAssert (url.utf8ByteSize < 512) "url too long"
  eosioAssert (producerKey ≠ 0) "public key should not be the default value"
  env.requireAuth producer
  let info := ((s.producers.find? producer).getD {})
  pure { s with producers := s.producers.set producer { info with isActive := true } }

def deactivate (s : State) (producer : AccountName) : Result State := do
  let info ← Token.Tables.getRow s.producers producer "producer not found"
  pure { s with producers := s.producers.set producer { info with isActive := false } }

def unregprod (s : State) (producer : AccountName) : Result State := do
  env.requireAuth producer
  deactivate s producer

def rmvproducer (s : State) (producer : AccountName) : Result State := do
  env.requireAuth systemAccountName
  deactivate s producer

end

section

def afterLastDot (n : AccountName) : ℕ × ℕ :=
  [59, 54, 49, 44, 39, 34, 29, 24, 19, 14, 9, 4].foldl
    (fun r bits => if (n >>> bits) &&& 0x1f = 0 then (r.1, bits) else (r.2, r.2)) (0, 0)

def nameSuffix (n : AccountName) : AccountName :=
  let thirteenth := n &&& 0x0f
  let bits := if thirteenth ≠ 0 then (afterLastDot n).2 else (afterLastDot n).1
  if bits = 0 then n
  else (((n &&& (2 ^ bits - 16)) <<< (64 - bits)) + (thirteenth <<< (64 - bits - 1))) % 2 ^ 64

def nameChar (n : AccountName) (i : ℕ) : Char :=
  let c := if i = 0 then n &&& 0x0f else (n >>> (4 + 5 * (i - 1))) &&& 0x1f
  ".12345abcdefghijklmnopqrstuvwxyz".toList.getD c '.'

def nameToString (n : AccountName) : String :=
  String.ofList (((List.range 13).map (nameChar n)).dropWhile (· = '.')).reverse

def hasDot (n : AccountName) : Bool := (List.range 12).any fun i => (n >>> (4 + 5 * i)) &&& 0x1f = 0

variable (env : Env)

def outbid (bidder : AccountName) (bid : Asset) : Option NameBid → Result (List InlineTransfer)
  | none => pure []
  | some current => do
    eosioAssert (current.highBid > 0) "this auction has already closed"
    eosioAssert (bid.amount - current.highBid > current.highBid / 10) "must increase bid by 10%"
    eosioAssert (current.highBidder ≠ bidder) "account is already highest bidder"
    pure [⟨namesAccount, current.highBidder, ← makeAsset current.highBid env.core,
      "refund bid on name " ++ nameToString current.newname⟩]

def bidname (s : State) (bidder newname : AccountName) (bid : Asset) : Result (State × List InlineTransfer) := do
  env.requireAuth bidder
  eosioAssert (nameSuffix newname = newname) "you can only bid on top-level suffix"
  eosioAssert (newname ≠ 0) "the empty name is not a valid account name to bid on"
  eosioAssert (newname &&& 0xf = 0) "13 character names are not valid account names to bid on"
  eosioAssert (newname &&& 0x1f0 = 0)
    "accounts with 12 character names and no dots can be created without bidding required"
  eosioAssert (env.isAccount newname = false) "account already exists"
  eosioAssert (bid.symbol = env.core) "asset must be system token"
  eosioAssert (bid.amount > 0) "insufficient bid"
  let refunds ← outbid env bidder bid (s.bids.find? newname)
  pure ({ s with bids := s.bids.set newname ⟨newname, bidder, bid.amount, env.currentTime⟩ },
    ⟨bidder, namesAccount, bid, "bid name " ++ nameToString newname⟩ :: refunds)

def claimName (s : State) (creator newact : AccountName) : Result State :=
  if creator ≠ systemAccountName ∧ hasDot newact then
    if nameSuffix newact = newact then do
      let current ← Token.Tables.getRow s.bids newact "no active bid for name"
      eosioAssert (current.highBidder = creator) "only highest bidder can claim"
      eosioAssert (current.highBid < 0) "auction for name is not closed yet"
      pure { s with bids := s.bids.erase newact }
    else do
      eosioAssert (creator = nameSuffix newact) "only suffix may create this account"
      pure s
  else pure s

def newaccount (s : State) (creator newact : AccountName) : Result State := do
  let s ← claimName s creator newact
  eosioAssert (s.userres.find? newact = none) "could not insert object, most likely a uniqueness constraint was violated"
  env.setResourceLimits newact 0 0 0
  pure { s with userres := s.userres.set newact ⟨⟨env.zero, env.zero⟩, 0⟩ }

end

inductive Action where
  | onblock (timestamp : UInt32) (producer : AccountName)
  | claimrewards (owner : AccountName)
  | regproducer (producer : AccountName) (producerKey : PublicKey) (url : String)
  | unregprod (producer : AccountName)
  | rmvproducer (producer : AccountName)
  | bidname (bidder newname : AccountName) (bid : Asset)
  | newaccount (creator newact : AccountName)

structure System where
  token : Token.Tables
  state : State

def System.run (env : Env) (s : System) : Action → Result (State × List Inline)
  | .onblock timestamp producer => do pure (← onblock env s.state timestamp producer, [])
  | .claimrewards owner => claimrewards env s.token s.state owner
  | .regproducer producer producerKey url => do pure (← regproducer env s.state producer producerKey url, [])
  | .unregprod producer => do pure (← unregprod env s.state producer, [])
  | .rmvproducer producer => do pure (← rmvproducer env s.state producer, [])
  | .bidname bidder newname bid => do
    let (state, inlines) ← bidname env s.state bidder newname bid
    pure (state, inlines.map .transfer)
  | .newaccount creator newact => do pure (← newaccount env s.state creator newact, [])

def System.apply (env : Env) (s : System) (a : Action) : Result System := do
  let (state, inlines) ← s.run env a
  let token ← inlines.foldlM env.sendInline s.token
  pure ⟨token, state⟩

inductive Run : System → Prop
  | start {s : System} (htoken : Token.TokenRun s.token) (hglobal : s.state.global = {})
      (hproducers : s.state.producers = empty) (hbids : s.state.bids = empty) : Run s
  | step {s s' : System} (env : Env) (a : Action) (h : Run s) (hs : s.apply env a = .ok s') : Run s'

end XosChain.SystemContract
