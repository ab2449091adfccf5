import XosChain.SystemContract.Actions
import XosChain.Token.Conservation

namespace XosChain.SystemContract

open Lib Staking

variable {env : Env} {s s' : State} {timestamp : UInt32} {producer owner : AccountName}

section

def credited (env : Env) (s : State) (producer : AccountName) : State := countBlock (startPresses env s) producer

def scheduled (env : Env) (s : State) (timestamp : UInt32) (producer : AccountName) : State :=
  let s := credited env s producer
  { s with global := { s.global with lastProducerScheduleUpdate := timestamp } }

lemma startPresses_cases (env : Env) (s : State) : ∃ fill,
    startPresses env s = { s with global := { s.global with lastPervoteBucketFill := fill } } := by
  rw [startPresses]
  split_ifs
  · exact ⟨env.currentTime, rfl⟩
  · exact ⟨s.global.lastPervoteBucketFill, rfl⟩

lemma countBlock_keeps (s : State) (producer : AccountName) : (countBlock s producer).bids = s.bids ∧
    ∃ total, (countBlock s producer).global = { s.global with totalUnpaidBlocks := total } := by
  rw [countBlock]
  split
  · exact ⟨rfl, s.global.totalUnpaidBlocks, rfl⟩
  · exact ⟨rfl, s.global.totalUnpaidBlocks + 1, rfl⟩

lemma credited_keeps (env : Env) (s : State) (producer : AccountName) : (credited env s producer).bids = s.bids ∧
    ∃ fill total, (credited env s producer).global =
      { s.global with lastPervoteBucketFill := fill, totalUnpaidBlocks := total } := by
  obtain ⟨fill, hfill⟩ := startPresses_cases env s
  obtain ⟨hbids, total, htotal⟩ := countBlock_keeps (startPresses env s) producer
  rw [hfill] at hbids htotal
  rw [credited, hfill]
  exact ⟨hbids, fill, total, htotal⟩

lemma onblock_cases (h : onblock env s timestamp producer = .ok s') :
    env.activated = false ∧ s' = s ∨
      env.activated = true ∧ (s' = credited env s producer ∨ s' = scheduled env s timestamp producer ∨
        s' = closeName env (scheduled env s timestamp producer) timestamp) := by
  obtain ⟨-, h⟩ := eosAssert_ok h
  by_cases hactivated : env.activated = true
  · rw [if_pos hactivated] at h
    refine .inr ⟨hactivated, ?_⟩
    dsimp only at h
    split at h
    · obtain ⟨-, -, h⟩ := bind_ok h
      split at h
      · exact .inr (.inr (Except.ok.inj h).symm)
      · exact .inr (.inl (Except.ok.inj h).symm)
    · exact .inl (Except.ok.inj h).symm
  · rw [if_neg hactivated] at h
    exact .inl ⟨Bool.eq_false_iff.mpr hactivated, (Except.ok.inj h).symm⟩

lemma onblock_closes (hactivated : env.activated = true)
    (hschedule : timestamp - s.global.lastProducerScheduleUpdate > 120)
    (hday : timestamp - s.global.lastNameClose > blocksPerDay) (h : onblock env s timestamp producer = .ok s') :
    s' = closeName env (scheduled env s timestamp producer) timestamp := by
  obtain ⟨-, fill, total, hglobal⟩ := credited_keeps env s producer
  obtain ⟨-, h⟩ := eosAssert_ok h
  rw [if_pos hactivated] at h
  change (if timestamp - (credited env s producer).global.lastProducerScheduleUpdate > 120 then _ else _) = _ at h
  rw [if_pos (by rw [hglobal]; exact hschedule)] at h
  obtain ⟨-, -, h⟩ := bind_ok h
  change (if timestamp - (credited env s producer).global.lastNameClose > blocksPerDay then _ else _) = _ at h
  rw [if_pos (by rw [hglobal]; exact hday)] at h
  exact (Except.ok.inj h).symm

end

section

lemma claimrewards_cases {token : Token.Tables} {inlines : List Inline}
    (h : claimrewards env token s owner = .ok (s', inlines)) :
    ∃ prod st minted paid votePay, s.producers.find? owner = some prod ∧ token.stat.find? env.core.name = some st ∧
      mintDue env s.global st.supply.amount = .ok minted ∧ inlines = minted ++ paid ∧
      s' = { s with
        global :=
          let g := fillBuckets env s.global st.supply.amount
          { g with
            pervoteBucket := g.pervoteBucket - votePay
            perblockBucket := g.perblockBucket - perBlockPay g.perblockBucket prod.unpaidBlocks g.totalUnpaidBlocks
            totalUnpaidBlocks := g.totalUnpaidBlocks - prod.unpaidBlocks }
        producers := s.producers.set owner { prod with lastClaimTime := env.currentTime, unpaidBlocks := 0 } } := by
  obtain ⟨-, h⟩ := eosAssert_ok h
  obtain ⟨prod, hprod, h⟩ := bind_ok h
  iterate 3 obtain ⟨-, h⟩ := eosioAssert_ok h
  obtain ⟨st, hst, h⟩ := bind_ok h
  obtain ⟨minted, hminted, h⟩ := bind_ok h
  obtain ⟨paid, -, h⟩ := bind_ok h
  obtain ⟨votesPaid, -, h⟩ := bind_ok h
  cases h
  exact ⟨prod, st, minted, paid ++ votesPaid, _, Token.Tables.getRow_ok hprod, Token.Tables.getRow_ok hst, hminted,
    List.append_assoc _ _ _, rfl⟩

lemma regproducer_cases {producerKey : PublicKey} {url : String}
    (h : regproducer env s producer producerKey url = .ok s') :
    s' = { s with
      producers := s.producers.set producer { (s.producers.find? producer).getD {} with isActive := true } } := by
  obtain ⟨-, h⟩ := eosioAssert_ok h
  obtain ⟨-, h⟩ := eosioAssert_ok h
  obtain ⟨-, h⟩ := eosAssert_ok h
  exact (Except.ok.inj h).symm

end

section

lemma bidname_cases {bidder newname : AccountName} {bid : Asset} {inlines : List InlineTransfer}
    (h : bidname env s bidder newname bid = .ok (s', inlines)) : 0 < bid.amount.toInt ∧
    s' = { s with bids := s.bids.set newname ⟨newname, bidder, bid.amount, env.currentTime⟩ } := by
  obtain ⟨-, h⟩ := eosAssert_ok h
  iterate 6 obtain ⟨-, h⟩ := eosioAssert_ok h
  obtain ⟨hpos, h⟩ := eosioAssert_ok h
  obtain ⟨refunds, -, h⟩ := bind_ok h
  cases h
  exact ⟨Int64.lt_iff_toInt_lt.mp hpos, rfl⟩

lemma newaccount_cases {creator newact : AccountName} (h : newaccount env s creator newact = .ok s') :
    s'.global = s.global ∧ s'.producers = s.producers ∧ (s'.bids = s.bids ∨ s'.bids = s.bids.erase newact) := by
  obtain ⟨t, ht, h⟩ := bind_ok h
  obtain ⟨-, h⟩ := eosioAssert_ok h
  obtain ⟨-, -, h⟩ := bind_ok h
  cases h
  rw [claimName] at ht
  split_ifs at ht
  · obtain ⟨current, -, ht⟩ := bind_ok ht
    iterate 2 obtain ⟨-, ht⟩ := eosioAssert_ok ht
    cases ht
    exact ⟨rfl, rfl, .inr rfl⟩
  · obtain ⟨-, ht⟩ := eosioAssert_ok ht
    cases ht
    exact ⟨rfl, rfl, .inl rfl⟩
  · cases ht
    exact ⟨rfl, rfl, .inl rfl⟩

end

structure Quiet (s s' : State) : Prop where
  global : s'.global = s.global
  producers : s'.producers = s.producers ∨ ∃ producer q, s'.producers = s.producers.set producer q ∧
    q.unpaidBlocks = ((s.producers.find? producer).getD {}).unpaidBlocks
  bids : s'.bids = s.bids ∨ (∃ k, s'.bids = s.bids.erase k) ∨
    ∃ k bidder highBid time, 0 < highBid.toInt ∧ s'.bids = s.bids.set k ⟨k, bidder, highBid, time⟩

lemma deactivate_quiet (h : deactivate s producer = .ok s') : Quiet s s' := by
  obtain ⟨info, hinfo, h⟩ := bind_ok h
  cases h
  exact ⟨rfl, .inr ⟨producer, _, rfl, by rw [Token.Tables.getRow_ok hinfo]; rfl⟩, .inl rfl⟩

lemma run_quiet {t : System} {a : Action} {inlines : List Inline} (h : t.run env a = .ok (s', inlines))
    (hblock : ∀ timestamp producer, a ≠ .onblock timestamp producer) (hclaim : ∀ owner, a ≠ .claimrewards owner) :
    Quiet t.state s' := by
  cases a with
  | onblock timestamp producer => exact absurd rfl (hblock timestamp producer)
  | claimrewards owner => exact absurd rfl (hclaim owner)
  | regproducer producer producerKey url =>
    obtain ⟨u, hu, h⟩ := bind_ok h
    cases h
    rw [regproducer_cases hu]
    exact ⟨rfl, .inr ⟨producer, _, rfl, rfl⟩, .inl rfl⟩
  | unregprod producer | rmvproducer producer =>
    obtain ⟨u, hu, h⟩ := bind_ok h
    cases h
    exact deactivate_quiet (eosAssert_ok hu).2
  | bidname bidder newname bid =>
    obtain ⟨⟨u, refunds⟩, hu, h⟩ := bind_ok h
    cases h
    obtain ⟨hpos, rfl⟩ := bidname_cases hu
    exact ⟨rfl, .inl rfl, .inr (.inr ⟨newname, bidder, bid.amount, env.currentTime, hpos, rfl⟩)⟩
  | newaccount creator newact =>
    obtain ⟨u, hu, h⟩ := bind_ok h
    cases h
    obtain ⟨hglobal, hproducers, hbids⟩ := newaccount_cases hu
    exact ⟨hglobal, .inl hproducers, hbids.imp_right fun h => .inl ⟨newact, h⟩⟩

lemma apply_cases {s s' : System} {a : Action} (h : s.apply env a = .ok s') : ∃ inlines,
    s.run env a = .ok (s'.state, inlines) ∧ inlines.foldlM env.sendInline s.token = .ok s'.token := by
  obtain ⟨⟨state, inlines⟩, hrun, h⟩ := bind_ok h
  obtain ⟨token, htoken, h⟩ := bind_ok h
  cases h
  exact ⟨inlines, hrun, htoken⟩

end XosChain.SystemContract
