import XosChain.Staking.Effects

namespace XosChain.Staking

open Lib Asset RefundRequest

def stakedBy (voters : FlatMap AccountName VoterInfo) (f : AccountName) : ℤ :=
  (voters.find? f).elim 0 fun v => v.staked.toInt

namespace Env

variable {env : Env} {t t' : Tables} {sender receiver signer source : AccountName} {net cpu amount balance : Asset}
  {left : Weights} {transfer : Bool} {inlines : List InlineTransfer}

lemma drawn_ok {amount' rest : Asset} (ha : Stake env.core amount) (hb : balance.Bounded)
    (h : env.drawn amount balance = .ok (amount', rest)) :
    Stake env.core amount' ∧ Stake env.core rest ∧ amount'.value = amount.value + (rest.value - balance.value) ∧
      rest.value = max 0 (balance.value - amount.value) := by
  obtain ⟨d, hd, h⟩ := bind_ok h
  obtain ⟨-, hsym, hbound, -⟩ := sub_ok hd
  have hval := sub_value hd ha.bounded hb
  obtain ⟨negative, hneg, h⟩ := bind_ok h
  obtain ⟨-, hneg⟩ := lt_zero_ok hneg
  cases negative with
  | true =>
    obtain ⟨rfl, rfl⟩ := Prod.mk.inj (Except.ok.inj h)
    have hd0 := hneg.mp rfl
    have hnv := neg_value hbound
    obtain ⟨hl, hu⟩ := hbound
    refine ⟨.zero _, ⟨hsym.trans ha.symbol, by omega, ⟨by omega, by omega⟩⟩, ?_, by omega⟩
    rw [hnv, hval, zero, value_zero]
    ring
  | false =>
    obtain ⟨rfl, rfl⟩ := Prod.mk.inj (Except.ok.inj h)
    have hd0 : 0 ≤ d.value := not_lt.mp fun hlt => nomatch hneg.mpr hlt
    have hz := value_zero env.core
    refine ⟨⟨hsym.trans ha.symbol, hd0, hbound⟩, .zero _, ?_, ?_⟩
    · rw [hval, zero, hz]
      ring
    · rw [zero, hz]
      omega

lemma opened_ok {rest : Asset} (hb : balance.Bounded) (h : env.opened balance = .ok (amount, rest)) :
    Stake env.core amount ∧ Stake env.core rest ∧ amount.value = 0 + (rest.value - balance.value) ∧
      rest.value = max 0 (balance.value - 0) := by
  obtain ⟨negative, hneg, h⟩ := bind_ok h
  obtain ⟨hsym, hneg⟩ := lt_zero_ok hneg
  cases negative with
  | true =>
    cases h
    have h0 := hneg.mp rfl
    have hnv := neg_value hb
    obtain ⟨hl, hu⟩ := hb
    have hz := value_zero env.core
    refine ⟨⟨hsym, by omega, ⟨by omega, by omega⟩⟩, .zero _, ?_, ?_⟩
    · rw [hnv, zero, hz]
      ring
    · rw [zero, hz]
      omega
  | false =>
    cases h
    have h0 : 0 ≤ balance.value := not_lt.mp fun hlt => nomatch hneg.mpr hlt
    refine ⟨.zero _, ⟨hsym, h0, hb⟩, ?_, by omega⟩
    rw [zero, value_zero]
    ring

structure Refunded (env : Env) (sender : AccountName) (old row : Option RefundRequest) (net cpu : Asset)
    (left : Weights) : Prop where
  leftStaked : left.Staked env.core
  rowStaked : ∀ r, row = some r → r.toWeights.Staked env.core
  owner : ∀ r, row = some r → r.owner = old.elim sender RefundRequest.owner
  netRow : (row.elim 0 fun r => r.net.value) = (old.elim 0 fun r => r.net.value) + (left.net.value - net.value)
  cpuRow : (row.elim 0 fun r => r.cpu.value) = (old.elim 0 fun r => r.cpu.value) + (left.cpu.value - cpu.value)
  netLeft : left.net.value = max 0 (net.value - old.elim 0 fun r => r.net.value)
  cpuLeft : left.cpu.value = max 0 (cpu.value - old.elim 0 fun r => r.cpu.value)

lemma changedRefund_ok {old row : Option RefundRequest} (hold : ∀ r, old = some r → r.toWeights.Staked env.core)
    (hn : net.Bounded) (hc : cpu.Bounded) (h : env.changedRefund sender old net cpu = .ok (row, left)) :
    Refunded env sender old row net cpu left := by
  cases old with
  | some r =>
    obtain ⟨negative, -, h⟩ := bind_ok h
    obtain ⟨⟨na, nb⟩, hnet, h⟩ := bind_ok h
    obtain ⟨⟨ca, cb⟩, hcpu, h⟩ := bind_ok h
    iterate 2 obtain ⟨-, h⟩ := assertThat_bind.mp h
    obtain ⟨empty, hempty, h⟩ := bind_ok h
    have hr := hold r rfl
    obtain ⟨hna, hnb, hnv, hnl⟩ := drawn_ok hr.net hn hnet
    obtain ⟨hca, hcb, hcv, hcl⟩ := drawn_ok hr.cpu hc hcpu
    cases empty with
    | true =>
      cases h
      obtain ⟨hn0, hc0⟩ := isZero_true hempty
      exact ⟨⟨hnb, hcb⟩, nofun, nofun, hn0.symm.trans hnv, hc0.symm.trans hcv, hnl, hcl⟩
    | false =>
      cases h
      refine ⟨⟨hnb, hcb⟩, fun r' hr' => ?_, fun r' hr' => ?_, hnv, hcv, hnl, hcl⟩
      · cases hr'
        exact ⟨hna, hca⟩
      · cases hr'
        rfl
  | none =>
    obtain ⟨negative, hneg, h⟩ := bind_ok h
    cases negative with
    | true =>
      obtain ⟨⟨na, nb⟩, hnet, h⟩ := bind_ok h
      obtain ⟨⟨ca, cb⟩, hcpu, h⟩ := bind_ok h
      cases h
      obtain ⟨hna, hnb, hnv, hnl⟩ := opened_ok hn hnet
      obtain ⟨hca, hcb, hcv, hcl⟩ := opened_ok hc hcpu
      refine ⟨⟨hnb, hcb⟩, fun r' hr' => ?_, fun r' hr' => ?_, hnv, hcv, hnl, hcl⟩
      · cases hr'
        exact ⟨hna, hca⟩
      · cases hr'
        rfl
    | false =>
      cases h
      obtain ⟨hneg, hneg'⟩ := either_false.mp hneg
      obtain ⟨hns, hn0⟩ := lt_zero_ok hneg
      obtain ⟨hcs, hc0⟩ := lt_zero_ok hneg'
      have hn0 : 0 ≤ net.value := not_lt.mp fun hlt => nomatch hn0.mpr hlt
      have hc0 : 0 ≤ cpu.value := not_lt.mp fun hlt => nomatch hc0.mpr hlt
      exact ⟨⟨⟨hns, hn0, hn⟩, ⟨hcs, hc0, hc⟩⟩, nofun, nofun, by simp, by simp, by simpa using hn0, by simpa using hc0⟩

structure Payable (core : SymbolType) (left : Weights) : Prop where
  symbol : left.net.symbol = core
  net : left.net.Bounded
  cpu : left.cpu.Bounded
  nonneg : 0 ≤ left.net.value + left.cpu.value

lemma updateRefund_ok {sum : Asset} (h : env.updateRefund t sender receiver net cpu transfer = .ok (t', left))
    (hm : AllStaked toWeights env.core t.refunds) (hs : net.symbol = env.core) (hn : net.Bounded)
    (hc : cpu.Bounded) (hsum : net.add cpu = .ok sum) :
    Payable env.core left ∧ ∃ refunds scheduled, t' = { t with refunds, scheduled } ∧
    RowChanged toWeights env.core t.refunds sender (left.net.value - net.value)
      (left.cpu.value - cpu.value) refunds := by
  rw [updateRefund] at h
  split_ifs at h with hcase
  · obtain ⟨⟨row, rest⟩, hrow, h⟩ := bind_ok h
    have hrefunded := changedRefund_ok (hm _) hn hc hrow
    have hleft := hrefunded.leftStaked
    have hpay : Payable env.core rest :=
      ⟨hleft.net.symbol, hleft.net.bounded, hleft.cpu.bounded, add_nonneg hleft.net.nonneg hleft.cpu.nonneg⟩
    cases row with
    | none =>
      cases h
      exact ⟨hpay, _, _, rfl, .erase hrefunded.netRow.symm hrefunded.cpuRow.symm⟩
    | some r =>
      obtain ⟨-, -, h⟩ := bind_ok h
      cases h
      exact ⟨hpay, _, _, rfl, .set (hrefunded.rowStaked r rfl) hrefunded.netRow hrefunded.cpuRow⟩
  · cases h
    have hpos : 0 ≤ net.value + cpu.value := by
      rw [Bool.or_eq_true, not_or, decide_eq_true_eq, Int64.lt_iff_toInt_lt, Int64.toInt_add] at hcase
      rw [← add_value hsum hn hc, (add_ok hsum).2.2.2]
      exact not_lt.mp hcase.2
    refine ⟨⟨hs, hn, hc, hpos⟩, t.refunds, _, rfl, ?_⟩
    rw [sub_self, sub_self]
    exact .same hm

lemma payStake_ok (hp : Payable env.core left) (h : env.payStake source left = .ok inlines) :
    (left.net.value + left.cpu.value = 0 ∧ inlines = []) ∨ ∃ q memo, q.symbol = env.core ∧
      q.value = left.net.value + left.cpu.value ∧ inlines = [⟨source, stakeAccount, q, memo⟩] := by
  obtain ⟨q, hq, h⟩ := bind_ok h
  obtain ⟨-, hsym, -, -⟩ := add_ok hq
  have hval := add_value hq hp.net hp.cpu
  obtain ⟨positive, hpos, h⟩ := bind_ok h
  obtain ⟨-, hpos⟩ := zero_lt_ok hpos
  cases positive with
  | true => exact .inr ⟨q, _, hsym.trans hp.symbol, hval, (Except.ok.inj h).symm⟩
  | false =>
    have hle : q.value ≤ 0 := not_lt.mp fun hlt => nomatch hpos.mpr hlt
    exact .inl ⟨le_antisymm (hval ▸ hle) hp.nonneg, (Except.ok.inj h).symm⟩

lemma updateVotingPower_ok (hn : net.Bounded) (hc : cpu.Bounded) (h : env.updateVotingPower t sender net cpu = .ok t') :
    ∃ voters, t' = { t with voters } ∧ (∀ f, f ≠ sender → stakedBy voters f = stakedBy t.voters f) ∧
      stakedBy voters sender = (stakedBy t.voters sender + (net.value + cpu.value)).bmod (2 ^ 64) := by
  obtain ⟨total, htotal, h⟩ := bind_ok h
  obtain ⟨-, -, h⟩ := bind_ok h
  cases h
  rw [← add_value htotal hn hc]
  obtain ⟨-, -, ⟨hl, hu⟩, -⟩ := add_ok htotal
  refine ⟨_, rfl, fun f hf => ?_, ?_⟩
  · rw [stakedBy, FlatMap.find?_set_of_ne _ _ hf.symm, stakedBy]
  · rw [stakedBy, FlatMap.find?_set_self, stakedBy]
    cases t.voters.find? sender with
    | none =>
      change total.value = (0 + total.value).bmod _
      rw [zero_add, bmod_of_bounded (by omega) (by omega)]
    | some v => exact Int64.toInt_add _ _

structure Restaked (env : Env) (t : Tables) (signer sender receiver : AccountName) (net cpu paid : ℤ) (t' : Tables)
    (inlines : List InlineTransfer) : Prop where
  delband : RowChanged id env.core t.delband (toLex (sender, receiver)) net cpu t'.delband
  userres : RowChanged UserResources.toWeights env.core t.userres receiver net cpu t'.userres
  refunds : ∃ n c, RowChanged toWeights env.core t.refunds sender n c t'.refunds ∧
    n + c = paid - (net + cpu)
  others : ∀ f, f ≠ sender → stakedBy t'.voters f = stakedBy t.voters f
  voter : stakedBy t'.voters sender = (stakedBy t.voters sender + (net + cpu)).bmod (2 ^ 64)
  inlines : (paid = 0 ∧ inlines = []) ∨ ∃ q memo, q.symbol = env.core ∧ q.value = paid ∧
    inlines = [⟨signer, stakeAccount, q, memo⟩]

lemma changebw_ok (hd : AllStaked id env.core t.delband) (hu : AllStaked UserResources.toWeights env.core t.userres)
    (hr : AllStaked toWeights env.core t.refunds) (hsigner : signer ≠ stakeAccount)
    (hs : net.symbol = env.core) (hn : net.Bounded) (hc : cpu.Bounded)
    (h : env.changebw t signer receiver net cpu transfer = .ok (t', inlines)) : ∃ sender paid,
    Restaked env t signer sender receiver net.value cpu.value paid t' inlines := by
  obtain ⟨sum, t1, t2, t3, hsum, h1, h2, h3, h4⟩ := changebw_steps h
  obtain ⟨delband, rfl, hdel⟩ := updateDelegated_ok h1 hd hn hc
  obtain ⟨userres, rfl, huser⟩ := updateTotals_ok h2 hu hn hc
  rw [settle, if_pos hsigner.symm] at h3
  obtain ⟨⟨t5, left⟩, h5, h3⟩ := bind_ok h3
  obtain ⟨pay, hpay, h3⟩ := bind_ok h3
  cases h3
  obtain ⟨hleft, refunds, scheduled, rfl, href⟩ := updateRefund_ok h5 hr hs hn hc hsum
  obtain ⟨voters, rfl, hothers, hvoter⟩ := updateVotingPower_ok hn hc h4
  exact ⟨_, left.net.value + left.cpu.value, hdel, huser, ⟨_, _, href, by ring⟩, hothers, hvoter, payStake_ok hleft hpay⟩

end Env

end XosChain.Staking
