import XosChain.Staking.Actions
import XosChain.Token.Conservation

namespace XosChain.Staking

open Lib FlatMap Asset UserResources

section

variable {a b c : Asset} {core : SymbolType} {r : Bool}

structure Stake (core : SymbolType) (a : Asset) : Prop where
  symbol : a.symbol = core
  nonneg : 0 ≤ a.value
  bounded : a.Bounded

structure Weights.Staked (core : SymbolType) (w : Weights) : Prop where
  net : Stake core w.net
  cpu : Stake core w.cpu

lemma Stake.zero (core : SymbolType) : Stake core ⟨0, core⟩ := ⟨rfl, le_rfl, bounded_zero core⟩

lemma zero_le_ok (h : le ⟨0, core⟩ a = .ok r) : a.symbol = core ∧ (r = true ↔ 0 ≤ a.value) := by
  obtain ⟨hs, rfl⟩ := compared_ok h
  rw [decide_eq_true_eq, Int64.le_iff_toInt_le]
  exact ⟨hs.symm, Iff.rfl⟩

lemma zero_lt_ok (h : lt ⟨0, core⟩ a = .ok r) : a.symbol = core ∧ (r = true ↔ 0 < a.value) := by
  obtain ⟨hs, rfl⟩ := compared_ok h
  rw [decide_eq_true_eq, Int64.lt_iff_toInt_lt]
  exact ⟨hs.symm, Iff.rfl⟩

lemma ge_zero_ok (h : a.ge ⟨0, core⟩ = .ok r) : a.symbol = core ∧ (r = true ↔ 0 ≤ a.value) := by
  obtain ⟨hs, rfl⟩ := compared_ok h
  rw [decide_eq_true_eq, ge_iff_le, Int64.le_iff_toInt_le]
  exact ⟨hs, Iff.rfl⟩

lemma gt_zero_ok (h : a.gt ⟨0, core⟩ = .ok r) : a.symbol = core ∧ (r = true ↔ 0 < a.value) := by
  obtain ⟨hs, rfl⟩ := compared_ok h
  rw [decide_eq_true_eq, gt_iff_lt, Int64.lt_iff_toInt_lt]
  exact ⟨hs, Iff.rfl⟩

lemma lt_zero_ok (h : a.lt ⟨0, core⟩ = .ok r) : a.symbol = core ∧ (r = true ↔ a.value < 0) := by
  obtain ⟨hs, rfl⟩ := compared_ok h
  rw [decide_eq_true_eq, Int64.lt_iff_toInt_lt]
  exact ⟨hs, Iff.rfl⟩

lemma eq_zero_ok (h : a.eq ⟨0, core⟩ = .ok r) : r = true ↔ a.value = 0 := by
  obtain ⟨-, rfl⟩ := compared_ok h
  rw [decide_eq_true_eq, ← Int64.toInt_inj]
  rfl

lemma bounded_of_add (h : a.add b = .ok c) (ha : 0 ≤ a.value) (hb : 0 ≤ b.value) (hc : 0 < c.value) :
    a.Bounded ∧ b.Bounded := by
  obtain ⟨-, -, ⟨-, hu⟩, hv⟩ := add_ok h
  have hau : a.value < 2 ^ 63 := Int64.toInt_lt a.amount
  have hbu : b.value < 2 ^ 63 := Int64.toInt_lt b.amount
  rw [hv] at hc hu
  simp only [Int.bmod] at hc hu
  have hsum : a.value + b.value ≤ 2 ^ 62 - 1 := by
    split_ifs at hc hu <;> omega
  exact ⟨⟨by omega, by omega⟩, ⟨by omega, by omega⟩⟩

end

section

variable {a b : Result Bool} {r : Bool} {β : Type} {next : Unit → Result β} {message : String} {y : β}

lemma assertThat_bind : assertThat a message >>= next = .ok y ↔ a = .ok true ∧ next () = .ok y := by
  rcases a with e | r
  · exact ⟨nofun, fun h => nomatch h.1⟩
  · change eosioAssert (r = true) message >>= next = .ok y ↔ _
    rw [eosioAssert_bind, Except.ok.injEq]

lemma both_true : both a b = .ok true ↔ a = .ok true ∧ b = .ok true := by
  rcases a with e | (_ | _)
  · exact ⟨nofun, fun h => nomatch h.1⟩
  · exact ⟨nofun, fun h => nomatch h.1⟩
  · exact ⟨fun h => ⟨rfl, h⟩, fun h => h.2⟩

lemma either_false : either a b = .ok false ↔ a = .ok false ∧ b = .ok false := by
  rcases a with e | (_ | _)
  · exact ⟨nofun, fun h => nomatch h.1⟩
  · exact ⟨fun h => ⟨rfl, h⟩, fun h => h.2⟩
  · exact ⟨nofun, fun h => nomatch h.1⟩

end

section

variable {κ ν : Type} [LinearOrder κ] {toWeights : ν → Weights} {core : SymbolType} {m m' : FlatMap κ ν} {k : κ}
  {net cpu : ℤ}

def netAt (toWeights : ν → Weights) (m : FlatMap κ ν) (k : κ) : ℤ :=
  (m.find? k).elim 0 fun w => (toWeights w).net.value

def cpuAt (toWeights : ν → Weights) (m : FlatMap κ ν) (k : κ) : ℤ :=
  (m.find? k).elim 0 fun w => (toWeights w).cpu.value

def weigh (toWeights : ν → Weights) (m : FlatMap κ ν) (c d : κ → ℤ) : ℤ :=
  m.sum fun k w => c k * (toWeights w).net.value + d k * (toWeights w).cpu.value

def AllStaked (toWeights : ν → Weights) (core : SymbolType) (m : FlatMap κ ν) : Prop :=
  ∀ k w, m.find? k = some w → (toWeights w).Staked core

structure RowChanged (toWeights : ν → Weights) (core : SymbolType) (m : FlatMap κ ν) (k : κ) (net cpu : ℤ)
    (m' : FlatMap κ ν) : Prop where
  other : ∀ j, j ≠ k → m'.find? j = m.find? j
  net : netAt toWeights m' k = netAt toWeights m k + net
  cpu : cpuAt toWeights m' k = cpuAt toWeights m k + cpu
  staked : ∀ w, m'.find? k = some w → (toWeights w).Staked core

lemma RowChanged.same (hm : AllStaked toWeights core m) : RowChanged toWeights core m k 0 0 m where
  other _ _ := rfl
  net := (add_zero _).symm
  cpu := (add_zero _).symm
  staked := hm k

lemma RowChanged.set {w : ν} (hw : (toWeights w).Staked core) (hn : (toWeights w).net.value = netAt toWeights m k + net)
    (hc : (toWeights w).cpu.value = cpuAt toWeights m k + cpu) :
    RowChanged toWeights core m k net cpu (m.set k w) where
  other j hj := find?_set_of_ne _ _ hj.symm
  net := by rw [← hn, netAt, find?_set_self, Option.elim]
  cpu := by rw [← hc, cpuAt, find?_set_self, Option.elim]
  staked v hv := by
    obtain rfl := Option.some.inj ((find?_set_self _ _ _).symm.trans hv)
    exact hw

lemma RowChanged.erase (hn : netAt toWeights m k + net = 0) (hc : cpuAt toWeights m k + cpu = 0) :
    RowChanged toWeights core m k net cpu (m.erase k) where
  other j hj := find?_erase_of_ne _ hj.symm
  net := by rw [hn, netAt, find?_erase_self, Option.elim]
  cpu := by rw [hc, cpuAt, find?_erase_self, Option.elim]
  staked v hv := by
    rw [find?_erase_self] at hv
    cases hv

lemma RowChanged.allStaked (h : RowChanged toWeights core m k net cpu m') (hm : AllStaked toWeights core m) :
    AllStaked toWeights core m' := by
  intro j w hw
  by_cases hj : j = k
  · exact h.staked w (hj ▸ hw)
  · exact hm j w ((h.other j hj).symm.trans hw)

lemma RowChanged.weigh (h : RowChanged toWeights core m k net cpu m') (c d : κ → ℤ) :
    weigh toWeights m' c d = weigh toWeights m c d + (c k * net + d k * cpu) := by
  have hrow : ∀ o : Option ν, (o.elim 0 fun w => c k * (toWeights w).net.value + d k * (toWeights w).cpu.value) =
      c k * (o.elim 0 fun w => (toWeights w).net.value) + d k * (o.elim 0 fun w => (toWeights w).cpu.value) := by
    rintro (_ | w) <;> simp
  have hn := h.net
  have hc := h.cpu
  rw [netAt, netAt] at hn
  rw [cpuAt, cpuAt] at hc
  rw [Staking.weigh, sum_eq_of_agree h.other, hrow, hrow, hn, hc, Staking.weigh]
  ring

lemma AllStaked.weigh_nonneg (h : AllStaked toWeights core m) {c d : κ → ℤ} (hc : ∀ k, 0 ≤ c k) (hd : ∀ k, 0 ≤ d k) :
    0 ≤ weigh toWeights m c d := by
  refine List.sum_nonneg fun n hn => ?_
  obtain ⟨⟨k, w⟩, he, rfl⟩ := List.mem_map.mp hn
  have hw := h k w ((m.find?_eq_some_iff k w).mpr he)
  exact add_nonneg (mul_nonneg (hc k) hw.net.nonneg) (mul_nonneg (hd k) hw.cpu.nonneg)

lemma AllStaked.weigh_mono (h : AllStaked toWeights core m) {c c' d d' : κ → ℤ} (hc : ∀ k, c k ≤ c' k)
    (hd : ∀ k, d k ≤ d' k) : weigh toWeights m c d ≤ weigh toWeights m c' d' := by
  refine List.sum_le_sum fun e he => ?_
  have hw := h e.1 e.2 ((m.find?_eq_some_iff e.1 e.2).mpr he)
  exact add_le_add (mul_le_mul_of_nonneg_right (hc _) hw.net.nonneg) (mul_le_mul_of_nonneg_right (hd _) hw.cpu.nonneg)

end

namespace Env

variable {env : Env} {t t' : Tables} {sender receiver : AccountName} {net cpu : Asset} {old : Option Weights}
  {w : Weights} {which : String} {transfer : Bool} {signer owner : AccountName} {inlines : List InlineTransfer}

lemma sendInline_moved {token token' : Token.Tables} {i : InlineTransfer} (ht : token.Conserved)
    (h : env.sendInline token i = .ok token') : token.Moved i.sender i.recipient i.quantity token' := by
  obtain ⟨-, -, h⟩ := bind_ok h
  exact Token.Tables.transfer_moved ht h

lemma updateDelegated_frame (h : env.updateDelegated t sender receiver net cpu = .ok t') :
    ∃ delband, t' = { t with delband } := by
  obtain ⟨w, -, h⟩ := bind_ok h
  obtain ⟨empty, -, h⟩ := bind_ok h
  cases empty <;> exact ⟨_, (Except.ok.inj h).symm⟩

lemma updateTotals_frame (h : env.updateTotals t receiver net cpu = .ok t') : ∃ userres, t' = { t with userres } := by
  obtain ⟨w, -, h⟩ := bind_ok h
  obtain ⟨-, -, h⟩ := bind_ok h
  obtain ⟨empty, -, h⟩ := bind_ok h
  cases empty <;> exact ⟨_, (Except.ok.inj h).symm⟩

lemma settle_frame (h : env.settle t signer sender receiver net cpu transfer = .ok (t', inlines)) :
    ∃ refunds scheduled, t' = { t with refunds, scheduled } := by
  rw [settle] at h
  split_ifs at h
  · obtain ⟨⟨u, left⟩, hu, h⟩ := bind_ok h
    obtain ⟨pay, -, h⟩ := bind_ok h
    cases h
    rw [updateRefund] at hu
    split_ifs at hu
    · obtain ⟨⟨row, rest⟩, -, hu⟩ := bind_ok hu
      cases row with
      | none =>
        cases hu
        exact ⟨_, _, rfl⟩
      | some r =>
        obtain ⟨-, -, hu⟩ := bind_ok hu
        cases hu
        exact ⟨_, _, rfl⟩
    · cases hu
      exact ⟨_, _, rfl⟩
  · cases h
    exact ⟨_, _, rfl⟩

lemma updateVotingPower_frame (h : env.updateVotingPower t sender net cpu = .ok t') : ∃ voters, t' = { t with voters } := by
  obtain ⟨total, -, h⟩ := bind_ok h
  obtain ⟨-, -, h⟩ := bind_ok h
  exact ⟨_, (Except.ok.inj h).symm⟩

lemma changebw_steps (h : env.changebw t signer receiver net cpu transfer = .ok (t', inlines)) :
    ∃ sum t1 t2 t3, net.add cpu = .ok sum ∧
      env.updateDelegated t (if transfer then receiver else signer) receiver net cpu = .ok t1 ∧
      env.updateTotals t1 receiver net cpu = .ok t2 ∧
      env.settle t2 signer (if transfer then receiver else signer) receiver net cpu transfer = .ok (t3, inlines) ∧
      env.updateVotingPower t3 (if transfer then receiver else signer) net cpu = .ok t' := by
  obtain ⟨-, h⟩ := eosAssert_ok h
  obtain ⟨-, h⟩ := assertThat_bind.mp h
  obtain ⟨sum, hsum, h⟩ := bind_ok h
  obtain ⟨-, h⟩ := eosioAssert_ok h
  obtain ⟨t1, h1, h⟩ := bind_ok h
  obtain ⟨t2, h2, h⟩ := bind_ok h
  obtain ⟨⟨t3, sent⟩, h3, h⟩ := bind_ok h
  obtain ⟨t4, h4, h⟩ := bind_ok h
  cases h
  exact ⟨sum, t1, t2, t3, hsum, h1, h2, h3, h4⟩

lemma delegatebw_ok (h : env.delegatebw t signer receiver net cpu transfer = .ok (t', inlines)) :
    net.symbol = env.core ∧ net.Bounded ∧ cpu.Bounded ∧ ¬ net.amount + cpu.amount < 0 ∧
      (transfer = false ∨ signer ≠ receiver) ∧ env.changebw t signer receiver net cpu transfer = .ok (t', inlines) := by
  obtain ⟨hcpu, h⟩ := assertThat_bind.mp h
  obtain ⟨hnet, h⟩ := assertThat_bind.mp h
  obtain ⟨hsum, h⟩ := assertThat_bind.mp h
  obtain ⟨hflag, h⟩ := eosioAssert_ok h
  obtain ⟨-, hc0⟩ := ge_zero_ok hcpu
  obtain ⟨hsym, hn0⟩ := ge_zero_ok hnet
  obtain ⟨sum, hadd, hsum⟩ := bind_ok hsum
  have hs := (gt_zero_ok hsum).2.mp rfl
  obtain ⟨hn, hc⟩ := bounded_of_add hadd (hn0.mp rfl) (hc0.mp rfl) hs
  refine ⟨hsym, hn, hc, ?_, hflag, h⟩
  rw [(add_ok hadd).2.2.2] at hs
  rw [Int64.lt_iff_toInt_lt, Int64.toInt_add]
  exact not_lt.mpr hs.le

lemma undelegatebw_ok (h : env.undelegatebw t signer receiver net cpu = .ok (t', inlines)) :
    net.neg.symbol = env.core ∧ net.neg.Bounded ∧ cpu.neg.Bounded ∧ net.neg.amount + cpu.neg.amount < 0 ∧
      env.changebw t signer receiver net.neg cpu.neg false = .ok (t', inlines) := by
  obtain ⟨hcpu, h⟩ := assertThat_bind.mp h
  obtain ⟨hnet, h⟩ := assertThat_bind.mp h
  obtain ⟨hsum, h⟩ := assertThat_bind.mp h
  obtain ⟨-, h⟩ := eosioAssert_ok h
  obtain ⟨-, hc0⟩ := zero_le_ok hcpu
  obtain ⟨hsym, hn0⟩ := zero_le_ok hnet
  obtain ⟨sum, hadd, hsum⟩ := bind_ok hsum
  have hs := (zero_lt_ok hsum).2.mp rfl
  obtain ⟨hc, hn⟩ := bounded_of_add hadd (hc0.mp rfl) (hn0.mp rfl) hs
  refine ⟨hsym, neg_bounded hn, neg_bounded hc, ?_, h⟩
  rw [add_value hadd hc hn] at hs
  rw [Int64.lt_iff_toInt_lt, Int64.toInt_add]
  change (net.neg.value + cpu.neg.value).bmod _ < 0
  rw [neg_value hn, neg_value hc]
  obtain ⟨hnl, hnu⟩ := hn
  obtain ⟨hcl, hcu⟩ := hc
  rw [bmod_of_bounded (by omega) (by omega)]
  omega

lemma refund_ok (h : env.refund t owner = .ok (t', inlines)) : ∃ r q, t.refunds.find? owner = some r ∧
    r.net.add r.cpu = .ok q ∧ t' = { t with refunds := t.refunds.erase owner } ∧
    inlines = [⟨stakeAccount, r.owner, q, "unstake"⟩] := by
  obtain ⟨-, h⟩ := eosAssert_ok h
  split at h
  · cases h
  rename_i r hrow
  obtain ⟨-, h⟩ := eosioAssert_ok h
  obtain ⟨q, hq, h⟩ := bind_ok h
  cases h
  exact ⟨r, q, hrow, hq, rfl, rfl⟩

lemma changedWeights_ok (hold : ∀ v, old = some v → v.Staked env.core) (hn : net.Bounded) (hc : cpu.Bounded)
    (h : env.changedWeights which old net cpu = .ok w) :
    w.Staked env.core ∧ w.net.value = (old.elim 0 fun v => v.net.value) + net.value ∧
      w.cpu.value = (old.elim 0 fun v => v.cpu.value) + cpu.value := by
  obtain ⟨v, hv, h⟩ := bind_ok h
  obtain ⟨hnet, h⟩ := assertThat_bind.mp h
  obtain ⟨hcpu, h⟩ := assertThat_bind.mp h
  cases h
  obtain ⟨hns, hnn⟩ := zero_le_ok hnet
  obtain ⟨hcs, hcn⟩ := zero_le_ok hcpu
  cases old with
  | none =>
    cases hv
    exact ⟨⟨⟨hns, hnn.mp rfl, hn⟩, ⟨hcs, hcn.mp rfl, hc⟩⟩, (zero_add _).symm, (zero_add _).symm⟩
  | some u =>
    obtain ⟨n, hadd, hv⟩ := bind_ok hv
    obtain ⟨c, hadd', hv⟩ := bind_ok hv
    cases hv
    have hu := hold u rfl
    obtain ⟨-, -, hnb, -⟩ := add_ok hadd
    obtain ⟨-, -, hcb, -⟩ := add_ok hadd'
    exact ⟨⟨⟨hns, hnn.mp rfl, hnb⟩, ⟨hcs, hcn.mp rfl, hcb⟩⟩, add_value hadd hu.net.bounded hn,
      add_value hadd' hu.cpu.bounded hc⟩

lemma isZero_true (h : env.isZero w = .ok true) : w.net.value = 0 ∧ w.cpu.value = 0 := by
  obtain ⟨hn, hc⟩ := both_true.mp h
  exact ⟨(eq_zero_ok hn).mp rfl, (eq_zero_ok hc).mp rfl⟩

lemma updateDelegated_ok (h : env.updateDelegated t sender receiver net cpu = .ok t')
    (hm : AllStaked id env.core t.delband) (hn : net.Bounded) (hc : cpu.Bounded) : ∃ delband, t' = { t with delband } ∧
    RowChanged id env.core t.delband (toLex (sender, receiver)) net.value cpu.value delband := by
  obtain ⟨w, hw, h⟩ := bind_ok h
  obtain ⟨hst, hnet, hcpu⟩ := changedWeights_ok (hm _) hn hc hw
  obtain ⟨empty, hempty, h⟩ := bind_ok h
  cases empty with
  | true =>
    obtain ⟨hn0, hc0⟩ := isZero_true hempty
    exact ⟨_, (Except.ok.inj h).symm, .erase (hnet.symm.trans hn0) (hcpu.symm.trans hc0)⟩
  | false => exact ⟨_, (Except.ok.inj h).symm, .set hst hnet hcpu⟩

lemma elim_map_toWeights (o : Option UserResources) (f : Weights → ℤ) :
    (o.map toWeights).elim 0 f = o.elim 0 fun w => f w.toWeights := by
  cases o <;> rfl

lemma updateTotals_ok (h : env.updateTotals t receiver net cpu = .ok t')
    (hm : AllStaked toWeights env.core t.userres) (hn : net.Bounded) (hc : cpu.Bounded) : ∃ userres, t' = { t with userres } ∧
    RowChanged toWeights env.core t.userres receiver net.value cpu.value userres := by
  obtain ⟨w, hw, h⟩ := bind_ok h
  have hold : ∀ v, (t.userres.find? receiver).map toWeights = some v → v.Staked env.core := by
    intro v hv
    obtain ⟨u, hu, rfl⟩ := Option.map_eq_some_iff.mp hv
    exact hm _ u hu
  obtain ⟨hst, hnet, hcpu⟩ := changedWeights_ok hold hn hc hw
  rw [elim_map_toWeights] at hnet hcpu
  obtain ⟨-, -, h⟩ := bind_ok h
  obtain ⟨empty, hempty, h⟩ := bind_ok h
  cases empty with
  | true =>
    obtain ⟨hn0, hc0⟩ := isZero_true (both_true.mp hempty).1
    exact ⟨_, (Except.ok.inj h).symm, .erase (hnet.symm.trans hn0) (hcpu.symm.trans hc0)⟩
  | false => exact ⟨_, (Except.ok.inj h).symm, .set hst hnet hcpu⟩

end Env

end XosChain.Staking
