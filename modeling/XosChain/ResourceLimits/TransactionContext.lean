import XosChain.ResourceLimits.Queries
import XosChain.ResourceLimits.Ram

namespace XosChain.ResourceLimits

open Lib

structure Control where
  maxTransactionNetUsage : ℕ
  maxTransactionCpuUsage : ℕ
  minTransactionCpuUsage : ℕ
  netUsageLeeway : ℕ
  isProducingBlock : Bool
  resourceGreylist : List AccountName
  skipTrxChecks : Bool
  net_lt : maxTransactionNetUsage < 2 ^ 32
  cpu_lt : maxTransactionCpuUsage < 2 ^ 32

lemma defaultNet_lt : 524288 < 2 ^ 32 := by decide

lemma defaultCpu_lt : 150000 < 2 ^ 32 := by decide

structure Trx where
  maxNetUsageWords : ℕ
  maxCpuUsageMs : ℕ
  authorizers : Accounts

structure TransactionContext where
  billToAccounts : Accounts := ⟨[], nil_ascending⟩
  netLimit : ℕ := 0
  netLimitDueToBlock : Bool := true
  netLimitDueToGreylist : Bool := false
  eagerNetLimit : ℕ := 0
  netUsage : ℕ := 0
  cpuLimitDueToGreylist : Bool := false
  objectiveDurationLimit : ℤ := 0
  billingTimerExceptionCode : Exception := .blockCpuUsageExceeded
  leeway : ℤ := 3000
  billedCpuTimeUs : ℤ := 0
  explicitBilledCpuTime : Bool := false
  pseudoStart : ℤ := 0
  deriving DecidableEq

def sub64 (a b : ℕ) : ℕ := if b ≤ a then a - b else a + 2 ^ 64 - b

def microseconds (n : ℕ) : ℤ := if n < 2 ^ 63 then n else n - 2 ^ 64

namespace Db

def getBlockCpuLimit (db : Db) : ℕ := sub64 db.config.cpuLimitParameters.max db.state.pendingCpuUsage

def getBlockNetLimit (db : Db) : ℕ := sub64 db.config.netLimitParameters.max db.state.pendingNetUsage

end Db

structure Bandwidth where
  accountNetLimit : ℤ := (2 ^ 63 - 1) / 2
  accountCpuLimit : ℤ := (2 ^ 63 - 1) / 2
  greylistedNet : Bool := false
  greylistedCpu : Bool := false

namespace Bandwidth

def lowerNet (b : Bandwidth) (elastic : Bool) (limit : ℤ) : Bandwidth :=
  if limit ≥ 0 then
    { b with accountNetLimit := min b.accountNetLimit limit, greylistedNet := b.greylistedNet || !elastic }
  else b

def lowerCpu (b : Bandwidth) (elastic : Bool) (limit : ℤ) : Bandwidth :=
  if limit ≥ 0 then
    { b with accountCpuLimit := min b.accountCpuLimit limit, greylistedCpu := b.greylistedCpu || !elastic }
  else b

end Bandwidth

namespace TransactionContext

def elastic (ctl : Control) (a : AccountName) : Bool := !(ctl.isProducingBlock && ctl.resourceGreylist.contains a)

def lower (ctl : Control) (db : Db) (b : Bandwidth) (a : AccountName) : Result Bandwidth := do
  let net ← db.getAccountNetLimitEx a (elastic ctl a)
  let b := b.lowerNet (elastic ctl a) net.available
  let cpu ← db.getAccountCpuLimitEx a (elastic ctl a)
  pure (b.lowerCpu (elastic ctl a) cpu.available)

def maxBandwidthBilledAccountsCanPay (ctx : TransactionContext) (ctl : Control) (db : Db) : Result Bandwidth :=
  ctx.billToAccounts.val.foldlM (lower ctl db) {}

def checkNetUsage (ctx : TransactionContext) (ctl : Control) : Result Unit :=
  if ctl.skipTrxChecks = false ∧ ctx.netUsage > ctx.eagerNetLimit then
    if ctx.netLimitDueToBlock then
      .error ⟨.blockNetUsageExceeded, "not enough space left in block: ${net_usage} > ${net_limit}"⟩
    else if ctx.netLimitDueToGreylist then
      .error ⟨.greylistNetUsageExceeded, "greylisted transaction net usage is too high: ${net_usage} > ${net_limit}"⟩
    else .error ⟨.txNetUsageExceeded, "transaction net usage is too high: ${net_usage} > ${net_limit}"⟩
  else pure ()

def addNetUsage (ctx : TransactionContext) (ctl : Control) (u : ℕ) : Result TransactionContext := do
  let ctx := { ctx with netUsage := (ctx.netUsage + u) % 2 ^ 64 }
  ctx.checkNetUsage ctl
  pure ctx

def checkBilled (ctx : TransactionContext) (billedUs : ℤ) : Result Unit :=
  if ctx.billingTimerExceptionCode = .blockCpuUsageExceeded then
    eosAssert (billedUs ≤ ctx.objectiveDurationLimit) .blockCpuUsageExceeded
      "billed CPU time (${billed} us) is greater than the billable CPU time left in the block (${billable} us)"
  else if ctx.cpuLimitDueToGreylist then
    eosAssert (billedUs ≤ ctx.objectiveDurationLimit) .greylistCpuUsageExceeded
      "billed CPU time (${billed} us) is greater than the maximum greylisted billable CPU time for the transaction (${billable} us)"
  else
    eosAssert (billedUs ≤ ctx.objectiveDurationLimit) .txCpuUsageExceeded
      "billed CPU time (${billed} us) is greater than the maximum billable CPU time for the transaction (${billable} us)"

def validateCpuUsageToBill (ctx : TransactionContext) (ctl : Control) (billedUs : ℤ) (checkMinimum : Bool) : Result Unit :=
  if ctl.skipTrxChecks then pure ()
  else do
    eosAssert (checkMinimum → billedUs ≥ ctl.minTransactionCpuUsage) .transactionException
      "cannot bill CPU time less than the minimum of ${min_billable} us"
    ctx.checkBilled billedUs

section

def limitToBlock (ctx : TransactionContext) (ctl : Control) (db : Db) : TransactionContext :=
  let netLimit := db.getBlockNetLimit
  let objectiveDurationLimit := microseconds db.getBlockCpuLimit
  let ctx := { ctx with netLimit, objectiveDurationLimit }
  let ctx :=
    if ctl.maxTransactionNetUsage ≤ netLimit then
      { ctx with netLimit := ctl.maxTransactionNetUsage, netLimitDueToBlock := false }
    else ctx
  if (ctl.maxTransactionCpuUsage : ℤ) ≤ objectiveDurationLimit then
    { ctx with
      objectiveDurationLimit := ctl.maxTransactionCpuUsage
      billingTimerExceptionCode := .txCpuUsageExceeded }
  else ctx

def limitToHeader (ctx : TransactionContext) (trx : Trx) : TransactionContext :=
  let trxSpecifiedNetUsageLimit := trx.maxNetUsageWords * 8
  let ctx :=
    if trxSpecifiedNetUsageLimit > 0 ∧ trxSpecifiedNetUsageLimit ≤ ctx.netLimit then
      { ctx with netLimit := trxSpecifiedNetUsageLimit, netLimitDueToBlock := false }
    else ctx
  if trx.maxCpuUsageMs > 0 ∧ (trx.maxCpuUsageMs * 1000 : ℤ) ≤ ctx.objectiveDurationLimit then
    { ctx with
      objectiveDurationLimit := trx.maxCpuUsageMs * 1000
      billingTimerExceptionCode := .txCpuUsageExceeded }
  else ctx

def validateEarly (ctx : TransactionContext) (ctl : Control) : Result Unit :=
  if ctx.billedCpuTimeUs > 0 then ctx.validateCpuUsageToBill ctl ctx.billedCpuTimeUs false else pure ()

def limitEagerly (ctx : TransactionContext) (ctl : Control) (b : Bandwidth) : TransactionContext :=
  let newEagerNetLimit := min ctx.netLimit ((b.accountNetLimit + ctl.netUsageLeeway).toNat % 2 ^ 64)
  let ctx :=
    { ctx with
      netLimitDueToGreylist := ctx.netLimitDueToGreylist || b.greylistedNet
      cpuLimitDueToGreylist := ctx.cpuLimitDueToGreylist || b.greylistedCpu
      netLimitDueToBlock := ctx.netLimitDueToBlock && !decide (newEagerNetLimit < ctx.netLimit)
      eagerNetLimit := newEagerNetLimit / 8 * 8 }
  if b.accountCpuLimit + ctx.leeway ≤ ctx.objectiveDurationLimit then
    { ctx with billingTimerExceptionCode := .leewayDeadlineException }
  else ctx

def addInitial (ctx : TransactionContext) (ctl : Control) (initialNetUsage : ℕ) : Result TransactionContext :=
  if initialNetUsage > 0 then ctx.addNetUsage ctl initialNetUsage else pure ctx

def init (ctx : TransactionContext) (ctl : Control) (trx : Trx) (initialNetUsage slot : ℕ) (db : Db) :
    Result (TransactionContext × Db) := do
  let ctx := (ctx.limitToBlock ctl db).limitToHeader trx
  ctx.validateEarly ctl
  let ctx := { ctx with billToAccounts := trx.authorizers }
  let db ← db.updateAccountUsage ctx.billToAccounts slot
  let b ← ctx.maxBandwidthBilledAccountsCanPay ctl db
  let ctx ← (ctx.limitEagerly ctl b).addInitial ctl initialNetUsage
  pure (ctx, db)

end

inductive Step (ctl : Control) : TransactionContext × Db → TransactionContext × Db → Prop
  | netUsage {ctx ctx' : TransactionContext} {db : Db} (u : ℕ) : ctx.addNetUsage ctl u = .ok ctx' →
    Step ctl (ctx, db) (ctx', db)
  | timer {ctx : TransactionContext} {db : Db} (pseudoStart : ℤ) : Step ctl (ctx, db) ({ ctx with pseudoStart }, db)
  | ram {ctx : TransactionContext} {db db' : Db} (account : AccountName) (delta : ℤ) :
    db.addPendingRamUsage account delta = .ok db' → Step ctl (ctx, db) (ctx, db')
  | initializeAccount {ctx : TransactionContext} {db db' : Db} (account : AccountName) :
    db.initializeAccount account = .ok db' → Step ctl (ctx, db) (ctx, db')
  | setAccountLimits {ctx : TransactionContext} {db : Db} {r : Bool × Db} (account : AccountName) (l : Limits) :
    db.setAccountLimits account l = .ok r → Step ctl (ctx, db) (ctx, r.2)

section

def limitToAccounts (ctx : TransactionContext) (b : Bandwidth) : TransactionContext :=
  let ctx :=
    { ctx with
      netLimitDueToGreylist := ctx.netLimitDueToGreylist || b.greylistedNet
      cpuLimitDueToGreylist := ctx.cpuLimitDueToGreylist || b.greylistedCpu }
  let ctx :=
    if b.accountNetLimit.toNat ≤ ctx.netLimit then
      { ctx with netLimit := b.accountNetLimit.toNat, netLimitDueToBlock := false }
    else ctx
  let ctx :=
    if b.accountCpuLimit ≤ ctx.objectiveDurationLimit then
      { ctx with objectiveDurationLimit := b.accountCpuLimit, billingTimerExceptionCode := .txCpuUsageExceeded }
    else ctx
  { ctx with netUsage := (ctx.netUsage + 7) % 2 ^ 64 / 8 * 8, eagerNetLimit := ctx.netLimit }

def updateBilledCpuTime (ctx : TransactionContext) (ctl : Control) (now : Time) : TransactionContext :=
  if ctx.explicitBilledCpuTime then ctx
  else { ctx with billedCpuTimeUs := max (now.val - ctx.pseudoStart) ctl.minTransactionCpuUsage }

def check (ctx : TransactionContext) (ctl : Control) (db : Db) : Timed TransactionContext := do
  let b ← ctx.maxBandwidthBilledAccountsCanPay ctl db
  let ctx := ctx.limitToAccounts b
  ctx.checkNetUsage ctl
  let time ← now
  let ctx := ctx.updateBilledCpuTime ctl time
  ctx.validateCpuUsageToBill ctl ctx.billedCpuTimeUs true
  pure ctx

def billed (ctx : TransactionContext) : ℕ := (ctx.billedCpuTimeUs % 2 ^ 64).toNat

def finalize (ctx : TransactionContext) (ctl : Control) (slot : ℕ) (db : Db) : Timed Db := do
  let ctx ← ctx.check ctl db
  db.addTransactionUsage ctx.billToAccounts ctx.billed ctx.netUsage slot

end

end TransactionContext

end XosChain.ResourceLimits
