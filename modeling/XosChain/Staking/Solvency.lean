import XosChain.Staking.Changebw
import XosChain.Token.Conservation

namespace XosChain.Staking

open Lib Token UserResources Env FlatMap

def netMoved (inlines : List InlineTransfer) : ℤ :=
  (inlines.map fun i => (if i.recipient = stakeAccount then i.quantity.value else 0) -
    if i.sender = stakeAccount then i.quantity.value else 0).sum

inductive StakingRun (core : SymbolType) : System → ℤ → Prop
  | start {s : System} (htoken : TokenRun s.token) (hdel : s.staking.delband = empty)
      (hrefunds : s.staking.refunds = empty)
      (huser : ∀ a w, s.staking.userres.find? a = some w → w.toWeights = ⟨⟨0, core⟩, ⟨0, core⟩⟩)
      (hvoters : ∀ a v, s.staking.voters.find? a = some v → v.staked = 0) : StakingRun core s 0
  | step {s s' : System} {moved : ℤ} {inlines : List InlineTransfer} (env : Env) (a : Action)
      (h : StakingRun core s moved) (hcore : env.core = core) (hsigner : a.signer ≠ stakeAccount)
      (hs : s.apply env a = .ok (s', inlines)) : StakingRun core s' (moved + netMoved inlines)

def toReceiver (r : AccountName) (k : AccountName ×ₗ AccountName) : ℤ := if (ofLex k).2 = r then 1 else 0

def fromSender (f : AccountName) (k : AccountName ×ₗ AccountName) : ℤ := if (ofLex k).1 = f then 1 else 0

variable {core : SymbolType} {s s' : System} {moved : ℤ} {env : Env} {signer sender receiver owner : AccountName}
  {net cpu paid : ℤ} {t t' : Tables} {inlines : List InlineTransfer} {token token' : Token.Tables}

lemma toReceiver_self : toReceiver receiver (toLex (sender, receiver)) = 1 := if_pos rfl

lemma toReceiver_of_ne {r : AccountName} (h : r ≠ receiver) : toReceiver r (toLex (sender, receiver)) = 0 :=
  if_neg h.symm

lemma fromSender_self : fromSender sender (toLex (sender, receiver)) = 1 := if_pos rfl

lemma fromSender_of_ne {f : AccountName} (h : f ≠ sender) : fromSender f (toLex (sender, receiver)) = 0 := if_neg h.symm

structure Balanced (core : SymbolType) (s : System) (moved : ℤ) : Prop where
  token : s.token.Conserved
  delband : AllStaked id core s.staking.delband
  userres : AllStaked toWeights core s.staking.userres
  refunds : AllStaked RefundRequest.toWeights core s.staking.refunds
  net : ∀ r, netAt toWeights s.staking.userres r = weigh id s.staking.delband (toReceiver r) 0
  cpu : ∀ r, cpuAt toWeights s.staking.userres r = weigh id s.staking.delband 0 (toReceiver r)
  votes : ∀ f, stakedBy s.staking.voters f = weigh id s.staking.delband (fromSender f) (fromSender f)
  solvent : moved = weigh id s.staking.delband 1 1 + weigh RefundRequest.toWeights s.staking.refunds 1 1
  backed : moved ≤ s.token.balance stakeAccount core.name

lemma Env.Restaked.tokens_paid (h : Restaked env t signer sender receiver net cpu paid t' inlines)
    (hsigner : signer ≠ stakeAccount) (ht : token.Conserved) (hs : inlines.foldlM env.sendInline token = .ok token') :
    token'.Conserved ∧ netMoved inlines = paid ∧
      token'.balance stakeAccount env.core.name = token.balance stakeAccount env.core.name + paid := by
  rcases h.inlines with ⟨rfl, rfl⟩ | ⟨q, memo, hsym, rfl, rfl⟩
  · cases hs
    exact ⟨ht, rfl, (add_zero _).symm⟩
  · rw [List.foldlM_cons] at hs
    obtain ⟨u, hu, hs⟩ := bind_ok hs
    cases hs
    have hm := sendInline_moved ht hu
    refine ⟨hm.conserved, by simp [netMoved, hsigner], ?_⟩
    rw [← hsym]
    exact hm.received

lemma stakes_bounded {delband : FlatMap (AccountName ×ₗ AccountName) Weights} (f : AccountName)
    (ht : token.Conserved) (hd : AllStaked id core delband)
    (hle : weigh id delband 1 1 ≤ token.balance owner core.name) :
    0 ≤ weigh id delband (fromSender f) (fromSender f) ∧
      weigh id delband (fromSender f) (fromSender f) ≤ 2 ^ 62 - 1 := by
  have h0 : ∀ k, 0 ≤ fromSender f k := by
    intro k
    rw [fromSender]
    split_ifs <;> omega
  have h1 : ∀ k, fromSender f k ≤ (1 : AccountName ×ₗ AccountName → ℤ) k := by
    intro k
    rw [fromSender, Pi.one_apply]
    split_ifs <;> omega
  have hmono := hd.weigh_mono h1 h1
  have hmax : token.balance owner core.name ≤ 2 ^ 62 - 1 := Token.Tables.balance_le_max ht
  exact ⟨hd.weigh_nonneg h0 h0, by omega⟩

section

variable (hb : Balanced core s moved) (hcore : env.core = core)

include hb hcore

section

variable (hsigner : signer ≠ stakeAccount) (hs : inlines.foldlM env.sendInline s.token = .ok token)

include hsigner hs

lemma Balanced.restaked (h : Restaked env s.staking signer sender receiver net cpu paid t' inlines) :
    Balanced core ⟨token, t'⟩ (moved + netMoved inlines) := by
  subst hcore
  obtain ⟨htoken, hmoved, hbal⟩ := h.tokens_paid hsigner hb.token hs
  obtain ⟨n, c, href, hnc⟩ := h.refunds
  have hd := h.delband.allStaked hb.delband
  have hr := href.allStaked hb.refunds
  have hsolvent : moved + netMoved inlines =
      weigh id t'.delband 1 1 + weigh RefundRequest.toWeights t'.refunds 1 1 := by
    rw [hmoved, hb.solvent, h.delband.weigh, href.weigh]
    simp only [Pi.one_apply, one_mul]
    omega
  have hbacked : moved + netMoved inlines ≤ token.balance stakeAccount env.core.name := by
    rw [hmoved, hbal]
    exact Int.add_le_add_right hb.backed _
  refine ⟨htoken, hd, h.userres.allStaked hb.userres, hr, fun r => ?_, fun r => ?_, fun f => ?_, hsolvent, hbacked⟩
  · rw [h.delband.weigh, Pi.zero_apply, zero_mul, add_zero]
    by_cases hr : r = receiver
    · rw [hr, toReceiver_self, one_mul, h.userres.net, hb.net]
    · rw [toReceiver_of_ne hr, zero_mul, add_zero, netAt, h.userres.other r hr]
      exact hb.net r
  · rw [h.delband.weigh, Pi.zero_apply, zero_mul, zero_add]
    by_cases hr : r = receiver
    · rw [hr, toReceiver_self, one_mul, h.userres.cpu, hb.cpu]
    · rw [toReceiver_of_ne hr, zero_mul, add_zero, cpuAt, h.userres.other r hr]
      exact hb.cpu r
  · have hrefunds : 0 ≤ weigh RefundRequest.toWeights t'.refunds 1 1 :=
      hr.weigh_nonneg (fun _ => zero_le_one) fun _ => zero_le_one
    obtain ⟨h0, hmax⟩ := stakes_bounded f htoken hd
      (by omega : weigh id t'.delband 1 1 ≤ token.balance stakeAccount env.core.name)
    rw [h.delband.weigh] at h0 hmax ⊢
    by_cases hf : f = sender
    · subst hf
      rw [fromSender_self, one_mul, one_mul] at h0 hmax ⊢
      rw [h.voter, hb.votes]
      exact Asset.bmod_of_bounded (by omega) (by omega)
    · rw [fromSender_of_ne hf, zero_mul, zero_mul, add_zero, add_zero, h.others f hf]
      exact hb.votes f

lemma Balanced.delegatebw {net cpu : Asset} {transfer : Bool}
    (h : env.delegatebw s.staking signer receiver net cpu transfer = .ok (t', inlines)) :
    Balanced core ⟨token, t'⟩ (moved + netMoved inlines) := by
  subst hcore
  obtain ⟨hsym, hn, hc, -, -, h⟩ := delegatebw_ok h
  obtain ⟨sender, paid, hr⟩ := changebw_ok hb.delband hb.userres hb.refunds hsigner hsym hn hc h
  exact hb.restaked rfl hsigner hs hr

lemma Balanced.undelegatebw {net cpu : Asset}
    (h : env.undelegatebw s.staking signer receiver net cpu = .ok (t', inlines)) :
    Balanced core ⟨token, t'⟩ (moved + netMoved inlines) := by
  subst hcore
  obtain ⟨hsym, hn, hc, -, h⟩ := undelegatebw_ok h
  obtain ⟨sender, paid, hr⟩ := changebw_ok hb.delband hb.userres hb.refunds hsigner hsym hn hc h
  exact hb.restaked rfl hsigner hs hr

end

lemma Balanced.refund (h : env.refund s.staking owner = .ok (t', inlines))
    (hs : inlines.foldlM env.sendInline s.token = .ok token) :
    Balanced core ⟨token, t'⟩ (moved + netMoved inlines) := by
  subst hcore
  obtain ⟨r, q, hrow, hq, rfl, rfl⟩ := refund_ok h
  rw [List.foldlM_cons] at hs
  obtain ⟨u, hu, hs⟩ := bind_ok hs
  cases hs
  have hstake := hb.refunds owner r hrow
  have hval := Asset.add_value hq hstake.net.bounded hstake.cpu.bounded
  have hsym := (Asset.add_ok hq).2.1.trans hstake.net.symbol
  have hm := sendInline_moved hb.token hu
  have hmoved : netMoved [⟨stakeAccount, r.owner, q, "unstake"⟩] = -(r.net.value + r.cpu.value) := by
    simp [netMoved, hm.distinct.symm, hval]
  have hchange : RowChanged RefundRequest.toWeights env.core s.staking.refunds owner (-r.net.value) (-r.cpu.value)
      (s.staking.refunds.erase owner) := by
    apply RowChanged.erase
    · simp [netAt, hrow]
    · simp [cpuAt, hrow]
  rw [hmoved]
  exact {
    token := hm.conserved
    delband := hb.delband
    userres := hb.userres
    refunds := hchange.allStaked hb.refunds
    net := hb.net
    cpu := hb.cpu
    votes := hb.votes
    solvent := by
      rw [hb.solvent, hchange.weigh]
      simp only [Pi.one_apply, one_mul]
      ring
    backed := by
      have hsent := hm.sent
      have hbacked := hb.backed
      rw [hsym, hval] at hsent
      dsimp only at hsent ⊢
      omega }

lemma Balanced.apply {a : Action} (hsigner : a.signer ≠ stakeAccount) (h : s.apply env a = .ok (s', inlines)) :
    Balanced core s' (moved + netMoved inlines) := by
  obtain ⟨⟨t', sent⟩, hrun, h⟩ := bind_ok h
  obtain ⟨token, htoken, h⟩ := bind_ok h
  cases h
  cases a with
  | delegatebw signer receiver net cpu transfer => exact hb.delegatebw hcore hsigner htoken hrun
  | undelegatebw signer receiver net cpu => exact hb.undelegatebw hcore hsigner htoken hrun
  | refund owner => exact hb.refund hcore hrun htoken

end

lemma Balanced.start (htoken : TokenRun s.token) (hdel : s.staking.delband = empty)
    (hrefunds : s.staking.refunds = empty)
    (huser : ∀ a w, s.staking.userres.find? a = some w → w.toWeights = ⟨⟨0, core⟩, ⟨0, core⟩⟩)
    (hvoters : ∀ a v, s.staking.voters.find? a = some v → v.staked = 0) : Balanced core s 0 where
  token := htoken.conserved
  delband := by
    rw [hdel]
    exact nofun
  userres := by
    intro a w hw
    rw [huser a w hw]
    exact ⟨.zero core, .zero core⟩
  refunds := by
    rw [hrefunds]
    exact nofun
  net := by
    intro r
    rw [hdel, netAt]
    cases hr : s.staking.userres.find? r with
    | none => rfl
    | some w => simp [huser r w hr, weigh]
  cpu := by
    intro r
    rw [hdel, cpuAt]
    cases hr : s.staking.userres.find? r with
    | none => rfl
    | some w => simp [huser r w hr, weigh]
  votes := by
    intro f
    rw [hdel, stakedBy]
    cases hf : s.staking.voters.find? f with
    | none => rfl
    | some v => simp [hvoters f v hf, weigh]
  solvent := by
    rw [hdel, hrefunds]
    rfl
  backed := Token.Tables.balance_nonneg htoken.conserved.toShaped

lemma StakingRun.balanced (h : StakingRun core s moved) : Balanced core s moved := by
  induction h with
  | start htoken hdel hrefunds huser hvoters => exact .start htoken hdel hrefunds huser hvoters
  | step env a _ hcore hsigner hs ih => exact ih.apply hcore hsigner hs

section

variable (delband : FlatMap (AccountName ×ₗ AccountName) Weights)

lemma weigh_toReceiver_net (r : AccountName) :
    weigh id delband (toReceiver r) 0 = delband.sum fun k w => if (ofLex k).2 = r then w.net.value else 0 := by
  simp [weigh, toReceiver]

lemma weigh_toReceiver_cpu (r : AccountName) :
    weigh id delband 0 (toReceiver r) = delband.sum fun k w => if (ofLex k).2 = r then w.cpu.value else 0 := by
  simp [weigh, toReceiver]

lemma weigh_fromSender (f : AccountName) : weigh id delband (fromSender f) (fromSender f) =
    delband.sum fun k w => if (ofLex k).1 = f then w.net.value + w.cpu.value else 0 := by
  simp only [weigh, fromSender, id, ite_mul, one_mul, zero_mul]
  congr 1
  funext k w
  split_ifs <;> rfl

lemma weigh_one {κ ν : Type} [LinearOrder κ] (toWeights : ν → Weights) (m : FlatMap κ ν) :
    weigh toWeights m 1 1 = m.sum fun _ w => (toWeights w).net.value + (toWeights w).cpu.value := by
  simp [weigh]

end

lemma Balanced.staked_nonneg (h : Balanced core s moved) (f : AccountName) : 0 ≤ stakedBy s.staking.voters f := by
  have h0 : ∀ k, 0 ≤ fromSender f k := by
    intro k
    rw [fromSender]
    split_ifs <;> omega
  rw [h.votes]
  exact h.delband.weigh_nonneg h0 h0

theorem stakes_are_conserved (h : StakingRun core s moved) :
    (∀ r, netAt toWeights s.staking.userres r =
        s.staking.delband.sum (fun k w => if (ofLex k).2 = r then w.net.value else 0) ∧
      cpuAt toWeights s.staking.userres r =
        s.staking.delband.sum fun k w => if (ofLex k).2 = r then w.cpu.value else 0) ∧
    (∀ f, stakedBy s.staking.voters f =
      s.staking.delband.sum fun k w => if (ofLex k).1 = f then w.net.value + w.cpu.value else 0) ∧
    moved = s.staking.delband.sum (fun _ w => w.net.value + w.cpu.value) +
      s.staking.refunds.sum (fun _ r => r.net.value + r.cpu.value) ∧
    (∀ k w, s.staking.delband.find? k = some w → 0 ≤ w.net.value ∧ 0 ≤ w.cpu.value) ∧
    (∀ r w, s.staking.userres.find? r = some w → 0 ≤ w.net.value ∧ 0 ≤ w.cpu.value) ∧
    (∀ a r, s.staking.refunds.find? a = some r → 0 ≤ r.net.value ∧ 0 ≤ r.cpu.value) ∧
    ∀ f, 0 ≤ stakedBy s.staking.voters f := by
  have hb := h.balanced
  refine ⟨fun r => ⟨?_, ?_⟩, fun f => ?_, ?_, fun k w hw => ?_, fun r w hw => ?_, fun a r hr => ?_, hb.staked_nonneg⟩
  · rw [hb.net, weigh_toReceiver_net]
  · rw [hb.cpu, weigh_toReceiver_cpu]
  · rw [hb.votes, weigh_fromSender]
  · rw [hb.solvent, weigh_one, weigh_one]
    rfl
  · have hst := hb.delband k w hw
    exact ⟨hst.net.nonneg, hst.cpu.nonneg⟩
  · have hst := hb.userres r w hw
    exact ⟨hst.net.nonneg, hst.cpu.nonneg⟩
  · have hst := hb.refunds a r hr
    exact ⟨hst.net.nonneg, hst.cpu.nonneg⟩

theorem stakes_and_refund_held : ∃ s moved, StakingRun ⟨1398362884⟩ s moved ∧ moved = 76 ∧
    s.staking.refunds.sum (fun _ r => r.net.value + r.cpu.value) = 6 ∧
    76 = s.staking.delband.sum (fun _ w => w.net.value + w.cpu.value) + 6 := by
  let env : Env := { self := 9, hasAuth := fun _ => true, core := ⟨1398362884⟩, now := 5 }
  let sys (n : Int64) : Asset := ⟨n, ⟨1398362884⟩⟩
  have hok : (({} : Token.Tables).apply env.toEnv (.create 1 (sys 1000)) >>= fun t =>
      t.apply env.toEnv (.issue 1 (sys 100) "") >>= fun t =>
      System.apply env ⟨t, {}⟩ (.delegatebw 1 2 (sys 30) (sys 40) false) >>= fun r₁ =>
      r₁.1.apply env (.undelegatebw 1 2 (sys 10) (sys 0)) >>= fun r₂ =>
      r₂.1.apply env (.delegatebw 1 1 (sys 4) (sys 6) false) >>= fun r₃ =>
      pure (r₃.1, 0 + netMoved r₁.2 + netMoved r₂.2 + netMoved r₃.2)).map
      (fun r => (r.2, r.1.staking.refunds.sum fun _ r => r.net.value + r.cpu.value)) = .ok (76, 6) := by decide +kernel
  obtain ⟨⟨s, moved⟩, hrun, hview⟩ := exists_of_map_ok hok
  obtain ⟨hmoved, hrefunds⟩ := Prod.mk.inj hview
  simp only [result_bind] at hrun
  obtain ⟨t₁, h₁, t₂, h₂, ⟨s₁, i₁⟩, h₃, ⟨s₂, i₂⟩, h₄, ⟨s₃, i₃⟩, h₅, hrun⟩ := hrun
  cases hrun
  dsimp only at hmoved hrefunds
  have htoken : TokenRun t₂ := .step env.toEnv _ (.step env.toEnv _ .start h₁) h₂
  have hstart : StakingRun ⟨1398362884⟩ ⟨t₂, {}⟩ 0 := .start htoken rfl rfl nofun nofun
  have hr := StakingRun.step env _ (.step env _ (.step env _ hstart rfl (by decide) h₃) rfl (by decide) h₄) rfl
    (by decide) h₅
  obtain ⟨-, -, hsum, -⟩ := stakes_are_conserved hr
  refine ⟨s₃, _, hr, hmoved, hrefunds, ?_⟩
  rw [hmoved, hrefunds] at hsum
  exact hsum

end XosChain.Staking
