import XosChain.Ram.Effects
import XosChain.Staking.Changebw

namespace XosChain.Ram

open Lib Staking Token List FlatMap Env RefundRequest

section

variable {core : SymbolType} {env : Staking.Env} {token token' : Token.Tables} {inlines : List InlineTransfer}

def movedInto (core : SymbolType) (i : InlineTransfer) : ℤ :=
  if i.quantity.symbol.name = core.name then
    (if i.recipient = ramAccount then i.quantity.value else 0) - if i.sender = ramAccount then i.quantity.value else 0
  else 0

def ramMoved (core : SymbolType) (inlines : List InlineTransfer) : ℤ := (inlines.map (movedInto core)).sum

lemma Moved.ramBalance {sender recipient : AccountName} {quantity : Asset} {memo : String}
    (h : token.Moved sender recipient quantity token') :
    token'.balance ramAccount core.name =
      token.balance ramAccount core.name + movedInto core ⟨sender, recipient, quantity, memo⟩ := by
  by_cases hsym : quantity.symbol.name = core.name
  · have hsent := h.sent
    have hreceived := h.received
    have hdistinct := h.distinct
    rw [hsym] at hsent hreceived
    by_cases hs : sender = ramAccount
    · subst hs
      simp [movedInto, hsym, hdistinct.symm, hsent, sub_eq_add_neg]
    · by_cases hr : recipient = ramAccount
      · subst hr
        simp [movedInto, hsym, hs, hreceived]
      · have hother := h.other ramAccount core.name (.inl ⟨Ne.symm hs, Ne.symm hr⟩)
        simp [movedInto, hs, hr, Token.Tables.balance, hother]
  · have hother := h.other ramAccount core.name (.inr (Ne.symm hsym))
    simp [movedInto, hsym, Token.Tables.balance, hother]

lemma sendInlines_moved (core : SymbolType) (ht : token.Conserved) (h : inlines.foldlM env.sendInline token = .ok token') :
    token'.Conserved ∧
      token'.balance ramAccount core.name = token.balance ramAccount core.name + ramMoved core inlines ∧
      ∀ i ∈ inlines, i.sender ≠ i.recipient ∧ 0 < i.quantity.value ∧ i.quantity.Bounded := by
  induction inlines generalizing token with
  | nil =>
    cases h
    exact ⟨ht, (add_zero _).symm, nofun⟩
  | cons i inlines ih =>
    rw [foldlM_cons] at h
    obtain ⟨u, hu, h⟩ := bind_ok h
    have hm := Env.sendInline_moved ht hu
    obtain ⟨hconserved, hbalance, hall⟩ := ih hm.conserved h
    refine ⟨hconserved, ?_, forall_mem_cons.mpr ⟨⟨hm.distinct, hm.positive, hm.bounded⟩, hall⟩⟩
    rw [hbalance, Moved.ramBalance hm, ramMoved, ramMoved, map_cons, sum_cons, add_assoc]

lemma ramMoved_eq_zero (h : ∀ i ∈ inlines, i.sender ≠ ramAccount ∧ i.recipient ≠ ramAccount) :
    ramMoved core inlines = 0 := by
  refine sum_eq_zero fun n hn => ?_
  obtain ⟨i, hi, rfl⟩ := mem_map.mp hn
  simp [movedInto, h i hi]

end

section

variable {env : Staking.Env} {t t' : Staking.Tables} {signer sender receiver owner : AccountName} {net cpu : Asset}
  {left : Weights} {transfer : Bool} {inlines : List InlineTransfer} {core : SymbolType}
  {refunds : FlatMap AccountName RefundRequest}

def Owned (core : SymbolType) (refunds : FlatMap AccountName RefundRequest) : Prop :=
  ∀ a r, refunds.find? a = some r → r.owner = a ∧ r.toWeights.Staked core

def SparesRam (refunds : FlatMap AccountName RefundRequest) : Staking.Action → Prop
  | .delegatebw signer receiver net cpu transfer => signer = ramAccount → transfer = false ∧ receiver = ramAccount ∧
      net.value ≤ netAt toWeights refunds ramAccount ∧ cpu.value ≤ cpuAt toWeights refunds ramAccount
  | .undelegatebw _ _ _ _ => True
  | .refund owner => owner ≠ ramAccount

lemma Owned.staked (h : Owned core refunds) : AllStaked toWeights core refunds := fun a r hr => (h a r hr).2

lemma Owned.nonneg (h : Owned core refunds) (a : AccountName) :
    0 ≤ netAt toWeights refunds a ∧ 0 ≤ cpuAt toWeights refunds a := by
  rw [netAt, cpuAt]
  cases hr : refunds.find? a with
  | none => exact ⟨le_rfl, le_rfl⟩
  | some r => exact ⟨(h a r hr).2.net.nonneg, (h a r hr).2.cpu.nonneg⟩

def Draws (sender receiver : AccountName) (net cpu : Asset) (transfer : Bool) : Prop :=
  transfer = false ∧ sender = receiver ∨ net.amount + cpu.amount < 0

structure LeftToPay (refunds : FlatMap AccountName RefundRequest) (sender receiver : AccountName) (net cpu : Asset)
    (transfer : Bool) (left : Weights) : Prop where
  drawn : Draws sender receiver net cpu transfer → left.net.value = max 0 (net.value - netAt toWeights refunds sender) ∧
    left.cpu.value = max 0 (cpu.value - cpuAt toWeights refunds sender)
  whole : ¬ Draws sender receiver net cpu transfer → left = ⟨net, cpu⟩

lemma updateRefund_left (h : env.updateRefund t sender receiver net cpu transfer = .ok (t', left))
    (ho : Owned env.core t.refunds) (hn : net.Bounded) (hc : cpu.Bounded) :
    Owned env.core t'.refunds ∧ LeftToPay t.refunds sender receiver net cpu transfer left := by
  have hdraws : (!transfer && sender = receiver || decide (net.amount + cpu.amount < 0)) = true ↔
      Draws sender receiver net cpu transfer := by
    simp [Draws]
  rw [updateRefund] at h
  split_ifs at h with hcase
  · rw [hdraws] at hcase
    obtain ⟨⟨row, rest⟩, hrow, h⟩ := bind_ok h
    have hrefunded := changedRefund_ok (fun r hr => (ho sender r hr).2) hn hc hrow
    have hleft : LeftToPay t.refunds sender receiver net cpu transfer rest :=
      ⟨fun _ => ⟨hrefunded.netLeft, hrefunded.cpuLeft⟩, fun hnot => absurd hcase hnot⟩
    cases row with
    | none =>
      cases h
      exact ⟨forall_erase ho, hleft⟩
    | some r =>
      obtain ⟨-, -, h⟩ := bind_ok h
      cases h
      refine ⟨forall_set ho ⟨(hrefunded.owner r rfl).trans ?_, hrefunded.rowStaked r rfl⟩, hleft⟩
      cases hold : t.refunds.find? sender with
      | none => rfl
      | some old => exact (ho sender old hold).1
  · rw [hdraws] at hcase
    cases h
    exact ⟨ho, fun hdraws => absurd hdraws hcase, fun _ => rfl⟩

lemma changebw_left (h : env.changebw t signer receiver net cpu transfer = .ok (t', inlines))
    (ho : Owned env.core t.refunds) (hs : net.symbol = env.core) (hn : net.Bounded) (hc : cpu.Bounded) :
    Owned env.core t'.refunds ∧ (signer = stakeAccount ∧ inlines = [] ∨
      ∃ left, LeftToPay t.refunds (if transfer then receiver else signer) receiver net cpu transfer left ∧
        ramMoved env.core inlines = if signer = ramAccount then -(left.net.value + left.cpu.value) else 0) := by
  obtain ⟨sum, t1, t2, t3, hsum, h1, h2, h3, h4⟩ := changebw_steps h
  obtain ⟨delband, rfl⟩ := updateDelegated_frame h1
  obtain ⟨userres, rfl⟩ := updateTotals_frame h2
  obtain ⟨voters, rfl⟩ := updateVotingPower_frame h4
  by_cases hsigner : stakeAccount = signer
  · rw [settle, if_neg (not_not.mpr hsigner)] at h3
    cases h3
    exact ⟨ho, .inl ⟨hsigner.symm, rfl⟩⟩
  rw [settle, if_pos hsigner] at h3
  obtain ⟨⟨t5, left⟩, h5, h3⟩ := bind_ok h3
  obtain ⟨pay, hpay, h3⟩ := bind_ok h3
  cases h3
  obtain ⟨hpayable, -⟩ := updateRefund_ok h5 ho.staked hs hn hc hsum
  obtain ⟨ho', hleft⟩ := updateRefund_left h5 ho hn hc
  refine ⟨ho', .inr ⟨left, hleft, ?_⟩⟩
  obtain ⟨hzero, rfl⟩ | ⟨q, memo, hsym, hq, rfl⟩ := payStake_ok hpayable hpay
  · rw [hzero]
    simp [ramMoved]
  · have hstake : stakeAccount ≠ ramAccount := by decide
    by_cases hram : signer = ramAccount <;> simp [ramMoved, movedInto, hsym, hq, hstake, hram]

lemma delegatebw_positive (h : env.delegatebw t signer receiver net cpu transfer = .ok (t', inlines)) :
    0 ≤ net.value ∧ 0 ≤ cpu.value ∧ 0 < net.value + cpu.value := by
  have hbounded := delegatebw_ok h
  obtain ⟨hcpu, h⟩ := assertThat_bind.mp h
  obtain ⟨hnet, h⟩ := assertThat_bind.mp h
  obtain ⟨hsum, -⟩ := assertThat_bind.mp h
  obtain ⟨sum, hadd, hsum⟩ := bind_ok hsum
  have hpos := (gt_zero_ok hsum).2.mp rfl
  rw [Asset.add_value hadd hbounded.2.1 hbounded.2.2.1] at hpos
  exact ⟨(ge_zero_ok hnet).2.mp rfl, (ge_zero_ok hcpu).2.mp rfl, hpos⟩

lemma undelegatebw_negative (h : env.undelegatebw t signer receiver net cpu = .ok (t', inlines)) :
    net.neg.value ≤ 0 ∧ cpu.neg.value ≤ 0 := by
  obtain ⟨hcpu, h⟩ := assertThat_bind.mp h
  obtain ⟨hnet, h⟩ := assertThat_bind.mp h
  obtain ⟨hsum, -⟩ := assertThat_bind.mp h
  obtain ⟨sum, hadd, hsum⟩ := bind_ok hsum
  have hc0 := (zero_le_ok hcpu).2.mp rfl
  have hn0 := (zero_le_ok hnet).2.mp rfl
  obtain ⟨hc, hn⟩ := bounded_of_add hadd hc0 hn0 ((zero_lt_ok hsum).2.mp rfl)
  rw [Asset.neg_value hn, Asset.neg_value hc]
  omega

lemma run_spares {a : Staking.Action} (h : env.run t a = .ok (t', inlines)) (ho : Owned env.core t.refunds)
    (hpos : ∀ i ∈ inlines, 0 < i.quantity.value) :
    Owned env.core t'.refunds ∧ (ramMoved env.core inlines = 0 ↔ SparesRam t.refunds a) := by
  cases a with
  | delegatebw signer receiver net cpu transfer =>
    obtain ⟨hsym, hn, hc, hsum, -, hchange⟩ := delegatebw_ok h
    obtain ⟨hn0, hc0, hnc⟩ := delegatebw_positive h
    obtain ⟨ho', hleft⟩ := changebw_left hchange ho hsym hn hc
    refine ⟨ho', ?_⟩
    obtain ⟨rfl, rfl⟩ | ⟨left, hleft, hmoved⟩ := hleft
    · exact iff_of_true rfl fun hram => absurd hram (by decide)
    rw [hmoved, SparesRam]
    by_cases hram : signer = ramAccount
    · subst hram
      rw [if_pos rfl, neg_eq_zero]
      by_cases hdraws : Draws (if transfer then receiver else ramAccount) receiver net cpu transfer
      · obtain ⟨rfl, rfl⟩ : transfer = false ∧ receiver = ramAccount := by
          rcases hdraws with ⟨rfl, heq⟩ | hlt
          · exact ⟨rfl, heq.symm⟩
          · exact absurd hlt hsum
        obtain ⟨hnl, hcl⟩ := hleft.drawn hdraws
        rw [if_neg Bool.false_ne_true] at hnl hcl
        simp only [true_and, forall_const]
        omega
      · obtain rfl := hleft.whole hdraws
        refine iff_of_false hnc.ne' fun hspares => hdraws (.inl ?_)
        obtain ⟨rfl, rfl, -⟩ := hspares rfl
        exact ⟨rfl, rfl⟩
    · exact iff_of_true (if_neg hram) fun heq => absurd heq hram
  | undelegatebw signer receiver net cpu =>
    obtain ⟨hsym, hn, hc, hsum, hchange⟩ := undelegatebw_ok h
    obtain ⟨hn0, hc0⟩ := undelegatebw_negative h
    obtain ⟨ho', hleft⟩ := changebw_left hchange ho hsym hn hc
    refine ⟨ho', iff_of_true ?_ trivial⟩
    obtain ⟨-, rfl⟩ | ⟨left, hleft, hmoved⟩ := hleft
    · rfl
    obtain ⟨hnl, hcl⟩ := hleft.drawn (.inr hsum)
    obtain ⟨hrn, hrc⟩ := ho.nonneg (if false then receiver else signer)
    rw [hmoved]
    split_ifs <;> omega
  | refund owner =>
    obtain ⟨r, q, hrow, hq, rfl, rfl⟩ := refund_ok h
    obtain ⟨rfl, hstaked⟩ := ho owner r hrow
    refine ⟨forall_erase ho, ?_⟩
    have hq0 : 0 < q.value := hpos _ (mem_singleton_self _)
    have hsym := (Asset.add_ok hq).2.1.trans hstaked.net.symbol
    have hstake : stakeAccount ≠ ramAccount := by decide
    by_cases hram : r.owner = ramAccount
    · simp [ramMoved, movedInto, SparesRam, hsym, hstake, hram, hq0.ne']
    · simp [ramMoved, movedInto, SparesRam, hstake, hram]

end

end XosChain.Ram
