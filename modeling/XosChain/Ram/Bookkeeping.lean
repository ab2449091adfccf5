import XosChain.Ram.Stakes

namespace XosChain.Ram

open Lib Staking Token List FlatMap

structure Record where
  before : System
  action : Action
  inlines : List InlineTransfer
  system : System

inductive Trace (core : SymbolType) (s0 : System) : List Record → System → Prop
  | nil : Trace core s0 [] s0
  | step {rs : List Record} {s s' : System} {inlines : List InlineTransfer} (env : Staking.Env) (p : Pricing)
      (a : Action) (h : Trace core s0 rs s) (hcore : env.core = core) (hs : s.apply env p a = .ok (s', inlines)) :
      Trace core s0 (⟨s, a, inlines, s'⟩ :: rs) s'

structure Created (core : SymbolType) (s0 : System) : Prop where
  token : TokenRun s0.token
  market : ∃ st, s0.token.stat.find? core.name = some st ∧ 0 < st.supply.value ∧
    s0.state.market = createMarket core st.supply.amount s0.state.global
  global : s0.state.global = {}
  quotas : ∀ a w, s0.state.staking.userres.find? a = some w → w.ramBytes = 0
  refunds : Owned core s0.state.staking.refunds
  notRam : core ≠ ramSymbol
  notRamcore : core ≠ ramcoreSymbol

structure Balanced (s0 s : System) (moved : ℤ) : Prop where
  base : s.state.market.base.value + s.state.global.totalRamBytesReserved.toNat = s.state.global.maxRamSize.toNat
  bytes : ramSum s.state.staking.userres = s.state.global.totalRamBytesReserved.toNat
  quote : s.state.market.quote.value - s0.state.market.quote.value = s.state.global.totalRamStake.toInt
  stake : s.state.global.totalRamStake.toInt = moved

def movedBy (core : SymbolType) (rs : List Record) : ℤ := (rs.map fun r => ramMoved core r.inlines).sum

def BalancedThroughout (core : SymbolType) (s0 : System) : List Record → Prop
  | [] => Balanced s0 s0 0
  | r :: rs => Balanced s0 r.system (movedBy core (r :: rs)) ∧ BalancedThroughout core s0 rs

structure Regular (core : SymbolType) (r : Record) : Prop where
  paid : ∀ payer receiver quant, r.action = .buyram payer receiver quant → quant.symbol = core
  staked : ∀ a, r.action = .stake a → SparesRam r.before.state.staking.refunds a
  quotas : ramSum r.system.state.staking.userres ≤ r.system.state.global.maxRamSize.toNat + 2 ^ 63

structure Sound (core : SymbolType) (s0 s : System) (moved : ℤ) : Prop extends Balanced s0 s moved where
  token : s.token.Conserved
  market : Quoted core s.state.market
  rows : ∀ a, 0 ≤ ramAt s.state.staking.userres a
  refunds : Owned core s.state.staking.refunds
  size : s.state.global.maxRamSize.toNat < 2 ^ 50
  nonneg : 0 ≤ s.state.global.totalRamStake.toInt
  backed : s.token.balance ramAccount core.name = s0.token.balance ramAccount core.name + moved

section

variable {core : SymbolType} {s0 s : System} {moved : ℤ} {env : Staking.Env} {p : Pricing} {t' : State}
  {token' : Token.Tables} {inlines : List InlineTransfer} {payer receiver account : AccountName}
  {quant paid out : Asset} {bytes : Int64} {row : UserResources}

lemma Balanced.quotas (h : Balanced s0 s moved) :
    ramSum s.state.staking.userres ≤ s.state.global.maxRamSize.toNat + 2 ^ 63 := by
  have hbase : -(2 ^ 63) ≤ s.state.market.base.value := Int64.le_toInt _
  have hsum := h.base
  have hbytes := h.bytes
  omega

variable {userres : FlatMap AccountName UserResources} {fees : List InlineTransfer}

lemma ramAt_le_ramSum (h : ∀ a, 0 ≤ ramAt userres a)
    (a : AccountName) : ramAt userres a ≤ ramSum userres := by
  rw [ramSum, ← userres.sum_erase a, ramAt]
  refine le_add_of_nonneg_left (sum_nonneg fun n hn => ?_)
  obtain ⟨⟨k, w⟩, he, rfl⟩ := mem_map.mp hn
  have hk := h k
  rwa [ramAt, (userres.find?_eq_some_iff k w).mpr (mem_eraseEntry he)] at hk

lemma Created.initialQuote (h : Created core s0) :
    0 ≤ s0.state.market.quote.value ∧ s0.state.market.quote.value ≤ 2 ^ 62 - 1 := by
  obtain ⟨st, hst, hpos, hmarket⟩ := h.market
  obtain ⟨-, -, ⟨-, hmax⟩, -⟩ := h.token.conserved.stat _ st hst
  have hdiv : s0.state.market.quote.value = (st.supply.value.tdiv 1000).bmod (2 ^ 64) := by
    rw [hmarket]
    exact Int64.toInt_div _ _
  rw [hdiv, Int.tdiv_eq_ediv_of_nonneg hpos.le, Asset.bmod_of_bounded (by omega) (by omega)]
  omega

lemma Created.sound (h : Created core s0) : Sound core s0 s0 0 := by
  obtain ⟨st, hst, hpos, hmarket⟩ := h.market
  have hglobal := h.global
  have hzero : ∀ a, ramAt s0.state.staking.userres a = 0 := by
    intro a
    rw [ramAt]
    cases ha : s0.state.staking.userres.find? a with
    | none => rfl
    | some w => simp [h.quotas a w ha]
  have hsum : ramSum s0.state.staking.userres = 0 := by
    refine sum_eq_zero fun n hn => ?_
    obtain ⟨⟨k, w⟩, he, rfl⟩ := mem_map.mp hn
    simp [h.quotas k w ((find?_eq_some_iff _ k w).mpr he)]
  exact {
    base := by
      rw [hmarket, hglobal]
      rfl
    bytes := by
      rw [hsum, hglobal]
      rfl
    quote := by
      rw [hglobal, sub_self]
      rfl
    stake := by
      rw [hglobal]
      rfl
    token := h.token.conserved
    market := by
      rw [hmarket]
      exact ⟨rfl, rfl, rfl⟩
    rows := fun a => (hzero a).ge
    refunds := h.refunds
    size := by
      rw [hglobal]
      decide
    nonneg := by
      rw [hglobal]
      rfl
    backed := (add_zero _).symm }

lemma ramMoved_fees (core : SymbolType) (i : InlineTransfer) (haccount : account ≠ ramAccount)
    (hfees : ∀ i ∈ fees, i.sender = account ∧ i.recipient = ramfeeAccount) :
    ramMoved core (i :: fees) = movedInto core i := by
  have hrest : ramMoved core fees = 0 := by
    refine ramMoved_eq_zero fun i hi => ?_
    rw [(hfees i hi).1, (hfees i hi).2]
    exact ⟨haccount, by decide⟩
  rw [ramMoved] at hrest
  rw [ramMoved, map_cons, sum_cons, hrest, add_zero]

lemma Sound.traded {b q : ℤ} (h : Sound core s0 s moved) (htoken : token'.Conserved)
    (hbalance : token'.balance ramAccount core.name = s.token.balance ramAccount core.name + q)
    (hmarket : Quoted core t'.market) (hbase : t'.market.base.value = s.state.market.base.value - b)
    (hquote : t'.market.quote.value = s.state.market.quote.value + q)
    (hmax : t'.global.maxRamSize = s.state.global.maxRamSize)
    (hreserved : (t'.global.totalRamBytesReserved.toNat : ℤ) = s.state.global.totalRamBytesReserved.toNat + b)
    (hstake : t'.global.totalRamStake.toInt = s.state.global.totalRamStake.toInt + q)
    (hnonneg : 0 ≤ t'.global.totalRamStake.toInt) (hsum : ramSum t'.staking.userres = ramSum s.state.staking.userres + b)
    (hrows : ∀ a, 0 ≤ ramAt t'.staking.userres a) (hrefunds : Owned core t'.staking.refunds) :
    Sound core s0 ⟨token', t'⟩ (moved + q) where
  base := by
    have hold := h.base
    rw [hbase, hreserved, hmax]
    omega
  bytes := by
    rw [hsum, hreserved, h.bytes]
  quote := by
    have hold := h.quote
    rw [hquote, hstake]
    omega
  stake := by
    rw [hstake, h.stake]
  token := htoken
  market := hmarket
  rows := hrows
  refunds := hrefunds
  size := by
    rw [hmax]
    exact h.size
  nonneg := hnonneg
  backed := by
    rw [hbalance, h.backed, add_assoc]

lemma ramAt_set_nonneg (h : ∀ a, 0 ≤ ramAt userres a)
    (hrow : 0 ≤ row.ramBytes.toInt) (a : AccountName) : 0 ≤ ramAt (userres.set account row) a := by
  by_cases ha : account = a
  · rw [ramAt, ha, find?_set_self]
    exact hrow
  · rw [ramAt, find?_set_of_ne _ _ ha]
    exact h a

section

variable (h0 : Created core s0) (h : Sound core s0 s moved)
  (hsent : inlines.foldlM env.sendInline s.token = .ok token')

include h0 h hsent

lemma Sound.bought (hb : Bought env p s.state payer receiver quant paid out t' inlines) (hsym : quant.symbol = core)
    (hquotas : ramSum t'.staking.userres ≤ t'.global.maxRamSize.toNat + 2 ^ 63) :
    Sound core s0 ⟨token', t'⟩ (moved + ramMoved core inlines) := by
  obtain ⟨fees, rfl, hfees⟩ := hb.inlines
  obtain ⟨htoken, hbalance, hall⟩ := sendInlines_moved core h.token hsent
  obtain ⟨hpayer, hpaid, -⟩ := hall _ mem_cons_self
  dsimp only at hpaid
  have hpaidsym := hb.symbol.trans hsym
  obtain ⟨hmarket, hout, hquote, hbase⟩ := convert_core_to_ram h0.notRam h0.notRamcore h.market hpaidsym hb.market
  have hpos := hb.positive
  have hrow := boughtRow_ramBytes s.state.staking.userres hpos hout.2 (h.rows receiver) hb.limit
  have hsum : ramSum t'.staking.userres = ramSum s.state.staking.userres + out.value := by
    rw [hb.userres, ramSum_set, hrow, Asset.value]
    ring
  have hmoved := ramMoved_fees core ⟨payer, ramAccount, paid, "buy ram"⟩ hpayer hfees
  simp only [movedInto, hpaidsym, if_pos, if_neg hpayer, sub_zero] at hmoved
  rw [hmoved] at hbalance ⊢
  have hroom : s.state.global.totalRamStake.toInt + paid.value ≤ 2 ^ 62 - 1 := by
    have hmax : token'.balance ramAccount core.name ≤ 2 ^ 62 - 1 := Token.Tables.balance_le_max htoken
    have hheld : 0 ≤ s0.token.balance ramAccount core.name :=
      Token.Tables.balance_nonneg h0.token.conserved.toShaped
    rw [hbalance, h.backed, ← h.stake] at hmax
    omega
  obtain ⟨hbaseEq, hbytesEq, hquoteEq, -⟩ := h.toBalanced
  have hnonneg := h.nonneg
  have hsize := h.size
  have hinitial := h0.initialQuote
  have hstake : t'.global.totalRamStake.toInt = s.state.global.totalRamStake.toInt + paid.value := by
    rw [hb.stake]
    apply toInt_add_eq
    · change _ ≤ _ + paid.value
      omega
    · change _ + paid.value < _
      omega
  rw [hb.maxRamSize] at hquotas
  refine h.traded htoken hbalance hmarket (value_of_sub hbase hout ?_ ?_) (value_of_add hquote ?_ ?_) hb.maxRamSize ?_
    hstake ?_ hsum ?_ (hb.refunds ▸ h.refunds)
  · omega
  · omega
  · omega
  · omega
  · rw [hb.reserved, UInt64.toNat_add]
    have hbytes := toNat_toUInt64 hpos.le
    change _ = out.value at hbytes
    omega
  · omega
  · rw [hb.userres]
    apply ramAt_set_nonneg h.rows
    have hold := h.rows receiver
    rw [hrow]
    exact add_nonneg hold hpos.le

lemma Sound.sold (hcore : env.core = core) (hb : Sold env p s.state account bytes out row t' inlines) :
    Sound core s0 ⟨token', t'⟩ (moved + ramMoved core inlines) := by
  subst hcore
  obtain ⟨fees, rfl, hfees⟩ := hb.inlines
  obtain ⟨htoken, hbalance, hall⟩ := sendInlines_moved env.core h.token hsent
  have haccount := (hall _ mem_cons_self).1.symm
  obtain ⟨hmarket, hsym, hout, hbase, hquote⟩ := convert_ram_to_core h0.notRam h0.notRamcore h.market rfl hb.market
  have hmoved := ramMoved_fees env.core ⟨ramAccount, account, out, "sell ram"⟩ haccount hfees
  simp only [movedInto, hsym, if_pos, if_neg haccount, zero_sub] at hmoved
  rw [hmoved] at hbalance ⊢
  have hpos := hb.positive
  have hquota := hb.quota
  have hreceived := hb.received
  have hrowLt := Int64.toInt_lt row.ramBytes
  have hat : ramAt s.state.staking.userres account = row.ramBytes.toInt := by
    rw [ramAt, hb.found]
    rfl
  have hle := ramAt_le_ramSum h.rows account
  have hrow : (row.ramBytes - bytes).toInt = row.ramBytes.toInt - bytes.toInt := toInt_sub_eq (by omega) (by omega)
  have hsum : ramSum t'.staking.userres = ramSum s.state.staking.userres + -bytes.toInt := by
    rw [hb.userres, ramSum_set, hat, hrow]
    ring
  obtain ⟨hbaseEq, hbytesEq, hquoteEq, -⟩ := h.toBalanced
  have hnonneg := h.nonneg
  have hsize := h.size
  have hinitial := h0.initialQuote
  obtain ⟨houtLow, houtHigh⟩ := id hout
  have hstakeLt := Int64.toInt_lt s.state.global.totalRamStake
  have hbytesValue : (⟨bytes, ramSymbol⟩ : Asset).value = bytes.toInt := rfl
  have hstake : t'.global.totalRamStake.toInt = s.state.global.totalRamStake.toInt + -out.value := by
    rw [hb.stake, ← sub_eq_add_neg]
    apply toInt_sub_eq
    · change _ ≤ _ - out.value
      omega
    · change _ - out.value < _
      omega
  have hquoteLt : s.state.market.quote.value < 2 ^ 63 := Int64.toInt_lt _
  have hquoteValue := value_of_sub hquote hout (by omega) (by omega)
  have hbaseLow : -(2 ^ 63) ≤ s.state.market.base.value := Int64.le_toInt _
  have hbaseValue := value_of_add hbase (by omega) (by omega)
  rw [hbytesValue] at hbaseValue
  refine h.traded htoken hbalance hmarket (by omega) (by omega) hb.maxRamSize ?_ hstake hb.nonneg hsum ?_
    (hb.refunds ▸ h.refunds)
  · have hbytes := toNat_toUInt64 hpos.le
    have hreserved : bytes.toUInt64 ≤ s.state.global.totalRamBytesReserved := by
      rw [UInt64.le_iff_toNat_le]
      omega
    rw [hb.reserved, UInt64.toNat_sub_of_le _ _ hreserved]
    rw [UInt64.le_iff_toNat_le] at hreserved
    omega
  · rw [hb.userres]
    apply ramAt_set_nonneg h.rows
    rw [hrow]
    omega

end

lemma Sound.resized {n : UInt64} (h : Sound core s0 s moved) (hrun : setram env s.state n = .ok t') :
    Sound core s0 ⟨s.token, t'⟩ moved := by
  obtain ⟨-, hrun⟩ := eosAssert_ok hrun
  obtain ⟨hlt, hrun⟩ := eosioAssert_ok hrun
  obtain ⟨hsmall, hrun⟩ := eosioAssert_ok hrun
  obtain ⟨-, hrun⟩ := eosioAssert_ok hrun
  cases hrun
  have hn : n.toNat < 2 ^ 50 := UInt64.lt_iff_toNat_lt.mp hsmall
  have hlt := UInt64.lt_iff_toNat_lt.mp hlt
  have hsize := h.size
  have hbaseEq := h.base
  have hbaseLow : -(2 ^ 63) ≤ s.state.market.base.value := Int64.le_toInt _
  have hn' := toInt_toInt64 (by omega : n.toNat < 2 ^ 63)
  have hm' := toInt_toInt64 (by omega : s.state.global.maxRamSize.toNat < 2 ^ 63)
  have hdelta : (n.toInt64 - s.state.global.maxRamSize.toInt64).toInt = n.toNat - s.state.global.maxRamSize.toNat := by
    rw [toInt_sub_eq, hn', hm'] <;> omega
  refine ⟨⟨?_, h.bytes, h.quote, h.stake⟩, h.token, ⟨h.market.supply, h.market.base, h.market.quote⟩, h.rows,
    h.refunds, hn, h.nonneg, h.backed⟩
  change (s.state.market.base.amount + _).toInt + (s.state.global.totalRamBytesReserved.toNat : ℤ) = n.toNat
  rw [toInt_add_eq, hdelta]
  · change s.state.market.base.value + _ + _ = _
    omega
  · rw [hdelta]
    change _ ≤ s.state.market.base.value + _
    omega
  · rw [hdelta]
    change s.state.market.base.value + _ < _
    omega

section

variable (h : Sound core s0 s moved) (hsent : inlines.foldlM env.sendInline s.token = .ok token')

include h hsent

lemma Sound.spares {a : Staking.Action} {staking : Staking.Tables} (hcore : env.core = core)
    (hrun : env.run s.state.staking a = .ok (staking, inlines)) :
    Owned core staking.refunds ∧ (ramMoved core inlines = 0 ↔ SparesRam s.state.staking.refunds a) := by
  subst hcore
  obtain ⟨-, -, hall⟩ := sendInlines_moved env.core h.token hsent
  exact run_spares hrun h.refunds fun i hi => (hall i hi).2.1

lemma Sound.staked {a : Staking.Action} {staking : Staking.Tables} (hcore : env.core = core)
    (hrun : env.run s.state.staking a = .ok (staking, inlines)) (hspares : SparesRam s.state.staking.refunds a) :
    Sound core s0 ⟨token', { s.state with staking }⟩ (moved + ramMoved core inlines) := by
  obtain ⟨htoken, hbalance, -⟩ := sendInlines_moved core h.token hsent
  obtain ⟨hsum, hat⟩ := run_ram hrun
  obtain ⟨howned, hiff⟩ := h.spares hsent hcore hrun
  rw [hiff.mpr hspares] at hbalance ⊢
  exact h.traded (b := 0) htoken hbalance h.market (sub_zero _).symm (add_zero _).symm rfl (add_zero _).symm
    (add_zero _).symm h.nonneg (hsum.trans (add_zero _).symm) (fun a => (h.rows a).trans_eq (hat a).symm)
    howned

lemma Sound.not_balanced_of_bought (h0 : Created core s0)
    (hb : Bought env p s.state payer receiver quant paid out t' inlines) (hsym : quant.symbol ≠ core) (moved' : ℤ) :
    ¬ Balanced s0 ⟨token', t'⟩ moved' := by
  intro hbalanced
  obtain ⟨fees, rfl, -⟩ := hb.inlines
  obtain ⟨-, -, hall⟩ := sendInlines_moved core h.token hsent
  obtain ⟨-, hpaid, -, hmax⟩ := hall _ mem_cons_self
  have hquote := convert_other_to_ram h0.notRam h.market (fun heq => hsym (hb.symbol.symm.trans heq)) hb.market
  have hold := h.quote
  have hnew := hbalanced.quote
  rw [hquote, hold, hb.stake, Int64.toInt_add, Int.bmod] at hnew
  have hstakeLt := Int64.toInt_lt s.state.global.totalRamStake
  have hstakeLe := Int64.le_toInt s.state.global.totalRamStake
  change 0 < paid.amount.toInt at hpaid
  change paid.amount.toInt ≤ _ at hmax
  split_ifs at hnew <;> omega

end

end

section

variable {core : SymbolType} {s0 s s' : System} {moved : ℤ} {env : Staking.Env} {p : Pricing} {a : Action}
  {inlines : List InlineTransfer} {rs : List Record}

lemma buyrambytes_ok {t t' : State} {payer receiver : AccountName} {bytes : UInt32} (hram : env.core ≠ ramSymbol)
    (hramcore : env.core ≠ ramcoreSymbol) (ht : Quoted env.core t.market)
    (h : buyrambytes env p t payer receiver bytes = .ok (t', inlines)) :
    ∃ quant, quant.symbol = env.core ∧ buyram env p t payer receiver quant = .ok (t', inlines) := by
  obtain ⟨input, hinput, h⟩ := bind_ok h
  obtain ⟨rfl, -⟩ := makeAsset_ok hinput
  obtain ⟨⟨market, eosout⟩, hprice, h⟩ := bind_ok h
  obtain ⟨-, hsym, -⟩ := convert_ram_to_core hram hramcore ht rfl hprice
  exact ⟨eosout, hsym, h⟩

section

variable (h0 : Created core s0) (h : Sound core s0 s moved) (hs : s.apply env p a = .ok (s', inlines))

include h0 h hs

lemma Sound.step (hcore : env.core = core) (hr : Regular core ⟨s, a, inlines, s'⟩) :
    Sound core s0 s' (moved + ramMoved core inlines) := by
  obtain ⟨⟨t', sent⟩, hrun, hs⟩ := bind_ok hs
  obtain ⟨token', hsent, hs⟩ := bind_ok hs
  cases hs
  cases a with
  | buyram payer receiver quant =>
    obtain ⟨paid, out, hb⟩ := buyram_ok hrun
    exact h.bought h0 hsent hb (hr.paid payer receiver quant rfl) hr.quotas
  | buyrambytes payer receiver bytes =>
    subst hcore
    obtain ⟨quant, hsym, hrun⟩ := buyrambytes_ok h0.notRam h0.notRamcore h.market hrun
    obtain ⟨paid, out, hb⟩ := buyram_ok hrun
    exact h.bought h0 hsent hb hsym hr.quotas
  | sellram account bytes =>
    obtain ⟨out, row, hb⟩ := sellram_ok hrun
    exact h.sold h0 hsent hcore hb
  | setram maxRamSize =>
    obtain ⟨u, hu, hrun⟩ := bind_ok hrun
    cases hrun
    cases hsent
    rw [ramMoved, map_nil, sum_nil, add_zero]
    exact h.resized hu
  | stake a =>
    obtain ⟨⟨staking, sent⟩, hstake, hrun⟩ := bind_ok hrun
    cases hrun
    exact h.staked hsent hcore hstake (hr.staked a rfl)

lemma Sound.regular_of_balanced (hcore : env.core = core) (hb : Balanced s0 s' (moved + ramMoved core inlines)) :
    Regular core ⟨s, a, inlines, s'⟩ := by
  obtain ⟨⟨t', sent⟩, hrun, hs⟩ := bind_ok hs
  obtain ⟨token', hsent, hs⟩ := bind_ok hs
  obtain ⟨rfl, rfl⟩ := Prod.mk.inj (Except.ok.inj hs)
  refine ⟨fun payer receiver quant ha => ?_, fun b ha => ?_, hb.quotas⟩
  · obtain rfl : a = _ := ha
    obtain ⟨paid, out, hbought⟩ := buyram_ok hrun
    by_contra hsym
    exact h.not_balanced_of_bought hsent h0 hbought hsym _ hb
  · obtain rfl : a = _ := ha
    obtain ⟨⟨staking, sent⟩, hstaking, hrun⟩ := bind_ok hrun
    obtain ⟨rfl, rfl⟩ := Prod.mk.inj (Except.ok.inj hrun)
    have hstake : s.state.global.totalRamStake.toInt = moved + ramMoved core sent := hb.stake
    rw [h.stake] at hstake
    exact (h.spares hsent hcore hstaking).2.mp (by omega)

end

lemma movedBy_cons (r : Record) : movedBy core (r :: rs) = movedBy core rs + ramMoved core r.inlines := by
  rw [movedBy, map_cons, sum_cons, add_comm, movedBy]

lemma Trace.sound (h0 : Created core s0) (h : Trace core s0 rs s) (hr : ∀ r ∈ rs, Regular core r) :
    Sound core s0 s (movedBy core rs) := by
  induction h with
  | nil => exact h0.sound
  | step env p a _ hcore hs ih =>
    obtain ⟨hlast, hrest⟩ := forall_mem_cons.mp hr
    rw [movedBy_cons]
    exact (ih hrest).step h0 hs hcore hlast

theorem market_balanced_iff (h0 : Created core s0) (h : Trace core s0 rs s) :
    BalancedThroughout core s0 rs ↔ ∀ r ∈ rs, Regular core r := by
  induction h with
  | nil => exact ⟨fun _ => nofun, fun _ => h0.sound.toBalanced⟩
  | step env p a htrace hcore hs ih =>
    rw [BalancedThroughout, forall_mem_cons, ih, movedBy_cons]
    constructor
    · rintro ⟨hb, hrest⟩
      exact ⟨(htrace.sound h0 hrest).regular_of_balanced h0 hs hcore hb, hrest⟩
    · rintro ⟨hlast, hrest⟩
      exact ⟨((htrace.sound h0 hrest).step h0 hs hcore hlast).toBalanced, hrest⟩

end

section

def someEnv : Staking.Env := { self := 9, hasAuth := fun _ => true, core := sysSymbol, now := 5 }

def somePricing : Pricing := ⟨fun _ _ _ => 5, fun _ _ _ => 10⟩

def twoTokens : Result Token.Tables := do
  let t ← ({} : Token.Tables).apply someEnv.toEnv (.create 1 ⟨5000000, sysSymbol⟩)
  let t ← t.apply someEnv.toEnv (.issue 1 ⟨1000000, sysSymbol⟩ "")
  let t ← t.apply someEnv.toEnv (.create 1 ⟨5000000, ramcoreSymbol⟩)
  t.apply someEnv.toEnv (.issue 1 ⟨1000000, ramcoreSymbol⟩ "")

def newMarket (token : Token.Tables) : System := ⟨token, ⟨{}, createMarket sysSymbol 1000000 {}, {}⟩⟩

lemma twoTokens_run {token : Token.Tables} (h : twoTokens = .ok token) : TokenRun token := by
  obtain ⟨t1, h1, h⟩ := bind_ok h
  obtain ⟨t2, h2, h⟩ := bind_ok h
  obtain ⟨t3, h3, h⟩ := bind_ok h
  exact .step _ _ (.step _ _ (.step _ _ (.step _ _ .start h1) h2) h3) h

lemma newMarket_created {token : Token.Tables} (h : twoTokens = .ok token) : Created sysSymbol (newMarket token) where
  token := twoTokens_run h
  market := by
    have hok : twoTokens.map (fun t => (t.stat.find? sysSymbol.name).map fun st => st.supply) =
        .ok (some ⟨1000000, sysSymbol⟩) := by decide +kernel
    rw [h] at hok
    obtain ⟨st, hst, hsupply⟩ := Option.map_eq_some_iff.mp (Except.ok.inj hok)
    refine ⟨st, hst, ?_, ?_⟩
    · rw [hsupply]
      decide
    · rw [hsupply]
      rfl
  global := rfl
  quotas := nofun
  refunds := nofun
  notRam := by decide
  notRamcore := by decide

lemma regular_trade {s s' : System} {a : Action} {inlines : List InlineTransfer} {bytes : ℤ}
    (hpaid : ∀ payer receiver quant, a = .buyram payer receiver quant → quant.symbol = sysSymbol)
    (hstaked : ∀ b, a = .stake b → SparesRam s.state.staking.refunds b)
    (hsum : ramSum s'.state.staking.userres = bytes) (hbytes : bytes ≤ 2 ^ 63) :
    Regular sysSymbol ⟨s, a, inlines, s'⟩ :=
  ⟨hpaid, hstaked, by dsimp only; omega⟩

theorem bought_and_sold_balanced : ∃ token s rs, Trace sysSymbol (newMarket token) rs s ∧ rs.length = 4 ∧
    s.state.global.totalRamStake.toInt = 189 ∧ BalancedThroughout sysSymbol (newMarket token) rs := by
  have hok : (twoTokens >>= fun token =>
      (newMarket token).apply someEnv somePricing (.buyram 1 2 ⟨200, sysSymbol⟩) >>= fun r1 =>
      r1.1.apply someEnv somePricing (.stake (.delegatebw 1 2 ⟨30, sysSymbol⟩ ⟨40, sysSymbol⟩ false)) >>= fun r2 =>
      r2.1.apply someEnv somePricing (.stake (.undelegatebw 1 2 ⟨10, sysSymbol⟩ ⟨0, sysSymbol⟩)) >>= fun r3 =>
      r3.1.apply someEnv somePricing (.sellram 2 4) >>= fun r4 => pure (token, r1, r2, r3, r4)).map
      (fun r => (r.2.2.2.2.1.state.global.totalRamStake.toInt, ramSum r.2.1.1.state.staking.userres,
        ramSum r.2.2.1.1.state.staking.userres, ramSum r.2.2.2.1.1.state.staking.userres,
        ramSum r.2.2.2.2.1.state.staking.userres)) = .ok (189, 10, 10, 10, 6) := by decide +kernel
  obtain ⟨⟨token, r1, r2, r3, r4⟩, hrun, hview⟩ := exists_of_map_ok hok
  simp only [result_bind] at hrun
  obtain ⟨token, htoken, ⟨s1, i1⟩, h1, ⟨s2, i2⟩, h2, ⟨s3, i3⟩, h3, ⟨s4, i4⟩, h4, hrun⟩ := hrun
  cases hrun
  obtain ⟨hstake, hview⟩ := Prod.mk.inj hview
  obtain ⟨hsum1, hview⟩ := Prod.mk.inj hview
  obtain ⟨hsum2, hview⟩ := Prod.mk.inj hview
  obtain ⟨hsum3, hsum4⟩ := Prod.mk.inj hview
  have htrace := Trace.step someEnv somePricing _ (.step someEnv somePricing _ (.step someEnv somePricing _
    (.step someEnv somePricing _ .nil rfl h1) rfl h2) rfl h3) rfl h4
  refine ⟨token, s4, _, htrace, rfl, hstake, (market_balanced_iff (newMarket_created htoken) htrace).mpr ?_⟩
  simp only [forall_mem_cons]
  refine ⟨regular_trade nofun nofun hsum4 (by omega), regular_trade nofun ?_ hsum3 (by omega),
    regular_trade nofun ?_ hsum2 (by omega), regular_trade ?_ nofun hsum1 (by omega), nofun⟩
  · rintro _ ⟨⟩
    exact trivial
  · rintro _ ⟨⟩ hram
    exact absurd hram (by decide)
  · rintro _ _ _ ⟨⟩
    rfl

theorem bought_with_another_token : ∃ token s rs, Created sysSymbol (newMarket token) ∧
    Trace sysSymbol (newMarket token) rs s ∧ s.state.global.totalRamStake.toInt = 199 ∧
    s.state.market.quote.value - (newMarket token).state.market.quote.value = 0 ∧
    ¬ BalancedThroughout sysSymbol (newMarket token) rs := by
  have hok : (twoTokens >>= fun token =>
      (newMarket token).apply someEnv somePricing (.buyram 1 2 ⟨200, ramcoreSymbol⟩) >>= fun r =>
      pure (token, r)).map (fun r => (r.2.1.state.global.totalRamStake.toInt, r.2.1.state.market.quote.value)) =
        .ok (199, 1000) := by decide +kernel
  obtain ⟨⟨token, r⟩, hrun, hview⟩ := exists_of_map_ok hok
  obtain ⟨token, htoken, hrun⟩ := bind_ok hrun
  obtain ⟨⟨s, inlines⟩, hs, hrun⟩ := bind_ok hrun
  cases hrun
  obtain ⟨hstake, hquote⟩ := Prod.mk.inj hview
  have hinitial : (newMarket token).state.market.quote.value = 1000 := by
    change (createMarket sysSymbol 1000000 {}).quote.value = 1000
    decide +kernel
  refine ⟨token, s, _, newMarket_created htoken, .step someEnv somePricing _ .nil rfl hs, hstake, ?_, ?_⟩
  · rw [hquote, hinitial, sub_self]
  · rintro ⟨hbalanced, -⟩
    have hcontra := hbalanced.quote
    rw [hquote, hinitial, hstake] at hcontra
    cases hcontra

end

end XosChain.Ram
