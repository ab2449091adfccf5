import XosChain.Header.Confirmations
import XosChain.Chainbase.FailedWrites
import XosChain.ResourceLimits.Finalize
import XosChain.Fork.HeadRun
import XosChain.Controller.SwitchOutcome
import XosChain.Controller.AgreementRun
import XosChain.Account.Admission
import XosChain.Dedup.Replay
import XosChain.Producers.Pipeline
import XosChain.Producers.Watermark
import XosChain.Unapplied.Kept
import XosChain.Contract.Handles
import XosChain.ResourceLimits.LimitUpdates
import XosChain.Signatures.RecoveryCache
import XosChain.Staking.Solvency
import XosChain.Staking.Scheduled
import XosChain.Governance.Lists
import XosChain.Wasm.NativeFloat
import XosChain.Wasm.Preservation
import XosChain.Ram.Bookkeeping
import XosChain.SystemContract.Auction
import XosChain.SystemContract.BlockPay
import XosChain.Msig.Integrity
import XosChain.MultiIndex.Runs
import XosChain.BlockLog.Durability
import XosChain.Net.ReadLoop
import XosChain.History.Deliveries
import XosChain.Net.Generations
import XosChain.ResourceLimits.Billing
import XosChain.Deferred.AllOrNothing
import XosChain.Fork.Propagation
import XosChain.Header.History
import XosChain.Producers.NextSlot
import XosChain.Actions.Exec
import XosChain.Actions.Receipts
import XosChain.Wasm.NestingLimit
import XosChain.Net.CatchUp
import XosChain.Net.SyncServe
import XosChain.Token.SymbolText
import XosChain.ResourceLimits.WindowBound
