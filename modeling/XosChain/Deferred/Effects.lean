import XosChain.Account.Effects
import XosChain.Deferred.Retire

namespace XosChain

open Lib

namespace Db

variable {db db' : Db} {p : Packing} {key : SenderKey} {g : GeneratedTransaction} {senderId : ℕ} {payer : AccountName}
  {trx : Transaction}

lemma createGenerated_ok (h : db.createGenerated key g = .ok db') :
    db.generated.find? key = none ∧ db' = { db with generated := db.generated.set key g } := by
  rw [createGenerated] at h
  split_ifs at h with hc
  cases h
  refine ⟨?_, rfl⟩
  simpa [FlatMap.contains] using fun hk => hc (.inl hk)

def sentRow (p : Packing) (ctx : ApplyContext) (payer : AccountName) (trx : Transaction) : GeneratedTransaction :=
  deferredRow p ctx payer (stampDeferred ctx trx)

lemma scheduleDeferredTransaction_ok {ctx : ApplyContext} {replaceExisting : Bool}
    (h : db.scheduleDeferredTransaction p ctx senderId payer trx replaceExisting = .ok db') :
    (db.generated.find? (senderKey ctx.receiver senderId) = none ∧
        Charged
          { db with generated := db.generated.set (senderKey ctx.receiver senderId) (sentRow p ctx payer trx) }
          db' payer (generatedSize p (sentRow p ctx payer trx))) ∨
      ∃ g, db.generated.find? (senderKey ctx.receiver senderId) = some g ∧
        Charged
          { db with
            generated := db.generated.set (senderKey ctx.receiver senderId)
              { sentRow p ctx payer trx with trxId := g.trxId } }
          db' payer (generatedSize p (sentRow p ctx payer trx)) := by
  obtain ⟨-, h⟩ := eosAssert_ok h
  obtain ⟨-, -, h⟩ := bind_ok h
  obtain ⟨-, -, h⟩ := bind_ok h
  obtain ⟨db1, h1, h⟩ := bind_ok h
  obtain ⟨-, h⟩ := eosAssert_ok h
  have hc := addRamUsage_charged h
  rw [storeDeferred] at h1
  cases hf : db.generated.find? (senderKey ctx.receiver senderId) with
  | none =>
    rw [hf] at h1
    obtain ⟨-, rfl⟩ := createGenerated_ok h1
    exact .inl ⟨rfl, hc⟩
  | some g =>
    rw [hf] at h1
    iterate 2 obtain ⟨-, h1⟩ := eosAssert_ok h1
    cases h1
    exact .inr ⟨g, rfl, hc⟩

lemma scheduleTransaction_ok {ctx : Context} {id : TransactionId} {delay : ℕ}
    (h : db.scheduleTransaction p ctx trx id delay = .ok db') :
    ∃ g, g.trxId = id ∧ g.packedTrx = trx ∧
      db.generated.find? (senderKey 0 (transactionIdToSenderId id)) = none ∧
      Charged { db with generated := db.generated.set (senderKey 0 (transactionIdToSenderId id)) g } db' g.payer
        (generatedSize p g) := by
  obtain ⟨db1, h1, h⟩ := bind_ok h
  have hc := addRamUsage_charged h
  obtain ⟨hn, rfl⟩ := createGenerated_ok h1
  exact ⟨_, rfl, rfl, hn, hc⟩

lemma removeScheduledTransaction_ok (h : db.removeScheduledTransaction p key g = .ok db') :
    Charged { db with generated := db.generated.erase key } db' g.payer (-generatedSize p g) := by
  obtain ⟨db1, h1, h⟩ := bind_ok h
  cases h
  obtain ⟨r, rfl, hr⟩ := addRamUsage_charged h1
  exact ⟨r, rfl, hr⟩

lemma findGenerated_some {trxId : TransactionId} {e : SenderKey × GeneratedTransaction}
    (h : db.findGenerated trxId = some e) : db.generated.find? e.1 = some e.2 ∧ e.2.trxId = trxId := by
  have hm := List.mem_of_find?_eq_some h
  have hp := List.find?_some h
  simp only [decide_eq_true_eq] at hp
  exact ⟨(db.generated.find?_eq_some_iff e.1 e.2).mpr hm, hp⟩

end Db

end XosChain
