import XosChain.Account.Links
import XosChain.Contract.Run

namespace XosChain

open Lib FlatMap

namespace Db

variable {db db' start : Db} {rt : Runtime} {p : Packing}

def Identified (p : Packing) (db : Db) : Prop := ∀ k g, db.generated.find? k = some g → g.trxId = p.id g.packedTrx

def KeepsId (p : Packing) (db : Db) : ChainOp → Prop
  | .scheduleDeferred ctx senderId _ trx _ =>
    ∀ g, db.generated.find? (senderKey ctx.receiver senderId) = some g → g.trxId = p.id (stampDeferred ctx trx)
  | _ => True

lemma Identified.of_subset (h : Identified p db)
    (hs : ∀ k g, db'.generated.find? k = some g → db.generated.find? k = some g) : Identified p db' :=
  fun k g hg => h k g (hs k g hg)

variable {key k : SenderKey} {g : GeneratedTransaction} {ctx : Context} {trx : Transaction} {trxId : TransactionId}
  {ex : Executor} {explicitBilled : Bool} {receipt : DeferredReceipt}

lemma Identified.cancelDeferredTransaction (h : Identified p db) {senderId : ℕ} {sender : AccountName}
    (hs : db.cancelDeferredTransaction p senderId sender = .ok db') : Identified p db' := by
  obtain ⟨-, rfl⟩ | ⟨g, -, r, rfl, -⟩ := cancelDeferredTransaction_ok hs
  · exact h
  · exact forall_erase h

lemma Identified.applyNative (h : Identified rt.packing db) {act : Action}
    (hs : db.applyNative rt ctx act = .ok db') : Identified rt.packing db' := by
  rw [Identified]
  rcases (applyNative_frame hs).generated with he | ⟨k, he⟩
  · exact he ▸ h
  · exact he ▸ forall_erase h

lemma Identified.scheduleDeferred (h : Identified p db) {ctx : ApplyContext} {senderId : ℕ} {payer : AccountName}
    {replaceExisting : Bool}
    (hk : ∀ g, db.generated.find? (senderKey ctx.receiver senderId) = some g → g.trxId = p.id (stampDeferred ctx trx))
    (hs : db.scheduleDeferredTransaction p ctx senderId payer trx replaceExisting = .ok db') : Identified p db' := by
  obtain ⟨-, r, rfl, -⟩ | ⟨g, hg, r, rfl, -⟩ := scheduleDeferredTransaction_ok hs
  · exact forall_set h rfl
  · exact forall_set h (hk g hg)

lemma Identified.delay (h : Identified p db) {delay : ℕ}
    (hs : db.scheduleTransaction p ctx trx (p.id trx) delay = .ok db') : Identified p db' := by
  obtain ⟨g, hid, htrx, -, r, rfl, -⟩ := scheduleTransaction_ok hs
  exact forall_set h (by rw [hid, htrx])

lemma Identified.retireRow (h : Identified p db) (hs : db.retireRow p trxId = .ok db') :
    Identified p db' := by
  obtain ⟨e, -, hs⟩ := retireRow_ok hs
  obtain ⟨r, rfl, -⟩ := removeScheduledTransaction_ok hs
  exact forall_erase h

lemma Identified.applyOp (h : Identified rt.packing db) {op : ChainOp} (ha : db.KeepsId rt.packing op)
    (hs : db.applyOp rt op = .ok db') : Identified rt.packing db' := by
  by_cases ho : op.onTables = true
  · have hstep := applyOp_tableStep ho hs
    exact h.of_subset (fun k g hg => by rw [← hstep.generated]; exact hg)
  · cases op with
    | native ctx act => exact h.applyNative hs
    | scheduleDeferred ctx senderId payer trx replaceExisting => exact h.scheduleDeferred ha hs
    | cancelDeferred senderId sender => exact h.cancelDeferredTransaction hs
    | delay ctx trx delay => exact h.delay hs
    | retire trxId => exact h.retireRow hs
    | dbStore | dbUpdate | dbRemove | idxStore | idxUpdate | idxRemove => exact absurd rfl ho

lemma ChainRun.identified (h : ChainRun rt (KeepsId rt.packing) start db) (hs : Identified rt.packing start) :
    Identified rt.packing db := by
  induction h with
  | start => exact hs
  | step op _ ha hstep ih => exact ih.applyOp ha hstep

section

variable {removed : Db} {e : Thrown} {receipt : Option DeferredReceipt}

lemma retireFailed_ok (h : db.retireFailed removed ex key g explicitBilled e = .ok (receipt, db')) :
    (∀ r ∈ receipt, r.id = g.trxId ∧ r.trx = g.packedTrx) ∧
      (db' = db ∨ db' = removed ∨ ex.onerror key g removed = .ok db') := by
  rw [retireFailed] at h
  split at h
  · rename_i d hd
    cases h
    split_ifs at hd
    exact ⟨by simp, .inr (.inr hd)⟩
  · split_ifs at h
    all_goals cases h
    all_goals simp

lemma retire_ok (h : db.retire p ctx ex key g explicitBilled = .ok (receipt, db')) :
    ∃ removed, db.removeScheduledTransaction p key g = .ok removed ∧
      (∀ r ∈ receipt, r.id = g.trxId ∧ r.trx = g.packedTrx) ∧
      (ex.exec g.packedTrx removed = .ok db' ∨ db' = db ∨ db' = removed ∨ ex.onerror key g removed = .ok db') := by
  obtain ⟨removed, hremoved, h⟩ := bind_ok h
  obtain ⟨-, h⟩ := eosAssert_ok h
  refine ⟨removed, hremoved, ?_⟩
  split_ifs at h with he
  · cases h
    simp
  · cases hx : ex.exec g.packedTrx removed with
    | ok db1 =>
      rw [hx] at h
      cases h
      simp
    | error e =>
      simp only [hx] at h
      split_ifs at h
      exact (retireFailed_ok h).imp_right .inr

lemma pushScheduledTransaction_ok (h : db.pushScheduledTransaction p ctx ex trxId explicitBilled = .ok (receipt, db')) :
    ∃ e, db.findGenerated trxId = some e ∧ db.retire p ctx ex e.1 e.2 explicitBilled = .ok (receipt, db') := by
  rw [pushScheduledTransaction] at h
  split at h
  · next e he => exact ⟨e, he, h⟩
  · cases h

end

lemma pushScheduledTransaction_receipt
    (h : db.pushScheduledTransaction p ctx ex trxId explicitBilled = .ok (some receipt, db')) :
    receipt.id = trxId ∧ ∃ k g, db.generated.find? k = some g ∧ g.trxId = trxId ∧ receipt.trx = g.packedTrx := by
  obtain ⟨e, hf, h⟩ := pushScheduledTransaction_ok h
  obtain ⟨hg, hid⟩ := findGenerated_some hf
  obtain ⟨-, -, hreceipt, -⟩ := retire_ok h
  obtain ⟨hr, htrx⟩ := hreceipt receipt rfl
  exact ⟨hr.trans hid, e.1, e.2, hg, hid, htrx⟩

theorem deferred_rows_keep_their_id {initialKey : PublicKey} {abi : Bytes} {time : ℕ}
    (hg : genesis initialKey abi time = .ok start) (hr : ChainRun rt (KeepsId rt.packing) start db) :
    (∀ k g, db.generated.find? k = some g → g.trxId = rt.packing.id g.packedTrx) ∧
      ∀ ctx ex trxId explicitBilled receipt db',
        db.pushScheduledTransaction rt.packing ctx ex trxId explicitBilled = .ok (some receipt, db') →
          receipt.id = trxId ∧ rt.packing.id receipt.trx = trxId := by
  have hstart : Identified rt.packing start := by
    intro k g hk
    rw [(genesis_rows hg).1] at hk
    cases hk
  have h := hr.identified hstart
  refine ⟨h, ?_⟩
  intro ctx ex trxId explicitBilled receipt db' hpush
  obtain ⟨hid, k, g, hk, hgid, htrx⟩ := pushScheduledTransaction_receipt hpush
  exact ⟨hid, by rw [htrx, ← h k g hk, hgid]⟩

def delayRuntime : Runtime := ⟨⟨fun trx => trx.delaySec, fun _ => 100⟩, fun _ => 0, fun _ => pure ()⟩

def systemContext : ApplyContext :=
  { receiver := Config.systemAccountName, actAccount := Config.systemAccountName, privileged := true }

def delayedTrx (delaySec : ℕ) : Transaction := { delaySec, actions := [fooAction] }

def sent (delaySec : ℕ) : ChainOp := .scheduleDeferred systemContext 1 Config.systemAccountName (delayedTrx delaySec) true

def resent (delaySec : ℕ) : ChainOp :=
  .scheduleDeferred systemContext 1 Config.systemAccountName { delaySec, actions := [fooAction, fooAction] } true

def idleExecutor : Executor := ⟨fun _ db => .ok db, fun _ _ db => .ok db⟩

def sentRows (db : Db) : List (TransactionId × Transaction) :=
  db.generated.entries.map (fun e => (e.2.trxId, e.2.packedTrx))

def retired (db : Db) (trxId : TransactionId) : Result (Option DeferredReceipt) :=
  (db.pushScheduledTransaction delayRuntime.packing { pendingBlockTime := 10000000 } idleExecutor trxId true).map Prod.fst

theorem deferredResent_keeps_its_id : ∃ start db db', genesis 7 [] 0 = .ok start ∧
    start.applyOp delayRuntime (sent 3) = .ok db ∧ db.applyOp delayRuntime (resent 3) = .ok db' ∧
    db'.sentRows = [(3, stampDeferred systemContext { delaySec := 3, actions := [fooAction, fooAction] })] ∧
    ∀ k g, db'.generated.find? k = some g → g.trxId = delayRuntime.packing.id g.packedTrx := by
  have hok : (genesis 7 [] 0 >>= fun start => start.applyOp delayRuntime (sent 3) >>= fun db =>
      (db.applyOp delayRuntime (resent 3)).map (fun db' => (db.sentRows.map Prod.fst, db'.sentRows))) =
      .ok ([3], [(3, stampDeferred systemContext { delaySec := 3, actions := [fooAction, fooAction] })]) := by decide +kernel
  obtain ⟨start, hg, hok⟩ := bind_ok hok
  obtain ⟨db, hs, hok⟩ := bind_ok hok
  obtain ⟨db', hs', hview⟩ := exists_of_map_ok hok
  obtain ⟨hids, hrows⟩ := Prod.mk.inj hview
  have hnew : start.KeepsId delayRuntime.packing (sent 3) := by
    intro g hrow
    rw [(genesis_rows hg).1] at hrow
    cases hrow
  have hsame : db.KeepsId delayRuntime.packing (resent 3) := by
    intro g hrow
    have hmem : g.trxId ∈ db.sentRows.map Prod.fst := by
      rw [sentRows, List.map_map]
      exact List.mem_map_of_mem ((db.generated.find?_eq_some_iff _ g).mp hrow)
    rw [hids] at hmem
    exact List.mem_singleton.mp hmem
  exact ⟨start, db, db', hg, hs, hs', hrows,
    (deferred_rows_keep_their_id hg (.step _ (.step _ .start hnew hs) hsame hs')).1⟩

theorem deferredReplaced_executes_another : ∃ start db, genesis 7 [] 0 = .ok start ∧
    start.applyOps delayRuntime [sent 3, sent 4] = .ok db ∧
    db.sentRows = [(3, stampDeferred systemContext (delayedTrx 4))] ∧
    db.retired 3 = .ok (some ⟨3, .executed, stampDeferred systemContext (delayedTrx 4)⟩) ∧
    delayRuntime.packing.id (stampDeferred systemContext (delayedTrx 4)) = 4 := by
  have hok : (genesis 7 [] 0 >>= fun start => start.applyOps delayRuntime [sent 3, sent 4]).map
      (fun db => (db.sentRows, db.retired 3)) =
        .ok ([(3, stampDeferred systemContext (delayedTrx 4))],
          .ok (some ⟨3, .executed, stampDeferred systemContext (delayedTrx 4)⟩)) := by decide +kernel
  obtain ⟨db, hdb, hview⟩ := exists_of_map_ok hok
  obtain ⟨start, hg, hs⟩ := bind_ok hdb
  obtain ⟨hrows, hretired⟩ := Prod.mk.inj hview
  exact ⟨start, db, hg, hs, hrows, hretired, rfl⟩

end Db

end XosChain
