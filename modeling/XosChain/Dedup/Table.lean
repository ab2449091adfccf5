import XosChain.Deferred.Schedule
import Mathlib.Data.List.MinMax

namespace XosChain.Dedup

open Lib List

abbrev Table := FlatMap TransactionId ℕ

def timePoint (expiration : ℕ) : ℕ := 1000000 * expiration

def recordTransaction (t : Table) (id : TransactionId) (expire : ℕ) : Result Table :=
  if t.contains id = true then .error ⟨.txDuplicate, "duplicate transaction"⟩ else pure (t.set id expire)

def validateExpiration (maxLifetime now : ℕ) (trx : Transaction) : Result Unit := do
  eosAssert (now ≤ timePoint trx.expiration) .expiredTxException "transaction has expired"
  eosAssert (timePoint trx.expiration ≤ now + timePoint maxLifetime) .txExpTooFarException
    "Transaction expiration is too far in the future relative to the reference time"

def firstExpiring (t : Table) : Option (TransactionId × ℕ) := t.entries.argmin Prod.snd

def clearExpired (now : ℕ) : ℕ → Table → Table
  | 0, t => t
  | fuel + 1, t =>
    match firstExpiring t with
    | none => t
    | some row => if timePoint row.2 < now then clearExpired now fuel (t.erase row.1) else t

def clearExpiredInputTransactions (now : ℕ) (t : Table) : Table := clearExpired now t.size t

structure InputTrx where
  trx : Transaction
  checks : Result Unit := pure ()
  init : Result Unit := pure ()
  exec : Result Unit := pure ()

structure Settings where
  packing : Packing
  maxLifetime : ℕ
  skipTrxChecks : Bool := false
  replayHeadTime : Option ℕ := none

variable (s : Settings)

def trxChecks (now : ℕ) (i : InputTrx) : Result Unit :=
  if s.skipTrxChecks then pure ()
  else do
    validateExpiration s.maxLifetime now i.trx
    i.checks

def skipRecording (i : InputTrx) : Bool := s.replayHeadTime.any (fun time => timePoint i.trx.expiration ≤ time)

def record (t : Table) (i : InputTrx) : Result Table :=
  if skipRecording s i then pure t else recordTransaction t (s.packing.id i.trx) i.trx.expiration

def initForInputTrx (now : ℕ) (t : Table) (i : InputTrx) : Result Table := do
  trxChecks s now i
  i.init
  record s t i

def pushTransaction (now : ℕ) (t : Table) (i : InputTrx) : Result Table := do
  let t ← initForInputTrx s now t i
  i.exec
  pure t

variable {s} {now : ℕ} {t t' : Table} {i : InputTrx}

lemma entries_nil_of_firstExpiring (h : firstExpiring t = none) (id : TransactionId) : t.find? id = none := by
  rw [FlatMap.find?, argmin_eq_none.mp h]
  rfl

variable {row : TransactionId × ℕ} {id : TransactionId}

lemma firstExpiring_some (h : firstExpiring t = some row) : t.find? row.1 = some row.2 :=
  (t.find?_eq_some_iff _ _).mpr (argmin_mem h)

lemma firstExpiring_le (h : firstExpiring t = some row) {e : ℕ}
    (he : t.find? id = some e) : row.2 ≤ e :=
  le_of_mem_argmin (f := Prod.snd) ((t.find?_eq_some_iff id e).mp he) h

lemma find?_clearExpired {fuel : ℕ} (hf : t.size ≤ fuel) (id : TransactionId) :
    (clearExpired now fuel t).find? id = (t.find? id).filter (fun e => now ≤ timePoint e) := by
  induction fuel generalizing t with
  | zero =>
    have hnone : firstExpiring t = none := by
      rw [firstExpiring, argmin_eq_none]
      exact length_eq_zero_iff.mp (Nat.le_zero.mp hf)
    rw [clearExpired, entries_nil_of_firstExpiring hnone]
    rfl
  | succ fuel ih =>
    rw [clearExpired]
    cases hrow : firstExpiring t with
    | none =>
      simp only
      rw [entries_nil_of_firstExpiring hrow]
      rfl
    | some row =>
      have hfind := firstExpiring_some hrow
      simp only
      split_ifs with hexp
      · have hsize := FlatMap.size_erase hfind
        rw [ih (by omega), FlatMap.find?_erase]
        split_ifs with hid
        · rw [← hid, hfind]
          simp [Option.filter, hexp]
        · rfl
      · cases he : t.find? id with
        | none => rfl
        | some e =>
          have hle := firstExpiring_le hrow he
          have hkeep : now ≤ timePoint e := by
            simp only [timePoint] at hexp ⊢
            omega
          simp [Option.filter, hkeep]

lemma find?_clear (id : TransactionId) :
    (clearExpiredInputTransactions now t).find? id = (t.find? id).filter (fun e => now ≤ timePoint e) :=
  find?_clearExpired le_rfl id

lemma recordTransaction_ok {e : ℕ} :
    recordTransaction t id e = .ok t' ↔ t.find? id = none ∧ t' = t.set id e := by
  rw [recordTransaction]
  cases hf : t.find? id with
  | none => simp [FlatMap.contains, hf, pure, Except.pure, eq_comm]
  | some e' => simp [FlatMap.contains, hf]

lemma recordTransaction_some {e e' : ℕ} (h : t.find? id = some e) :
    recordTransaction t id e' = .error ⟨.txDuplicate, "duplicate transaction"⟩ := by
  simp [recordTransaction, FlatMap.contains, h]

lemma trxChecks_ok {u : Unit} (hs : s.skipTrxChecks = false) (h : trxChecks s now i = .ok u) :
    now ≤ timePoint i.trx.expiration := by
  rw [trxChecks, if_neg (by simp [hs])] at h
  obtain ⟨u', hu, -⟩ := bind_ok h
  exact (eosAssert_ok hu).1

end XosChain.Dedup
