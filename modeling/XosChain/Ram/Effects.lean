import XosChain.Lib.Words
import XosChain.Ram.Market
import XosChain.Staking.Effects
import XosChain.Token.Conservation

namespace XosChain.Ram

open Lib Staking FlatMap Env

section

variable {a b c : Asset}

lemma value_of_add (h : c.amount = a.amount + b.amount) (hl : -(2 ^ 63) ≤ a.value + b.value)
    (hu : a.value + b.value < 2 ^ 63) : c.value = a.value + b.value := by
  rw [Asset.value, h]
  exact toInt_add_eq hl hu

lemma value_of_sub (h : c.amount = a.amount + -b.amount) (hb : b.Bounded) (hl : -(2 ^ 63) ≤ a.value - b.value)
    (hu : a.value - b.value < 2 ^ 63) : c.value = a.value - b.value := by
  have hneg := Asset.neg_value hb
  rw [sub_eq_add_neg, ← hneg] at hl hu ⊢
  exact value_of_add h hl hu

end

section

variable {core : SymbolType} {p : Pricing} {s s' : ExchangeState} {input out : Asset} {c : Side}

structure Quoted (core : SymbolType) (s : ExchangeState) : Prop where
  supply : s.supply.symbol = ramcoreSymbol
  base : s.base.symbol = ramSymbol
  quote : s.quote.symbol = core

lemma convertToExchange_ok (h : s.convertToExchange p c input = .ok (s', out)) : out.symbol = s.supply.symbol ∧
    ∃ issued, s' = (s.addToSupply issued).addToBalance input.amount c := by
  obtain ⟨made, hmade, h⟩ := bind_ok h
  cases h
  obtain ⟨rfl, -⟩ := makeAsset_ok hmade
  exact ⟨rfl, _, rfl⟩

lemma convertFromExchange_ok (h : s.convertFromExchange p c input = .ok (s', out)) :
    out.symbol = (s.balance c).symbol ∧ out.Bounded ∧
      s' = (s.addToSupply (-input.amount)).addToBalance (-out.amount) c := by
  obtain ⟨-, h⟩ := eosioAssert_ok h
  obtain ⟨made, hmade, h⟩ := bind_ok h
  cases h
  obtain ⟨rfl, hbounded⟩ := makeAsset_ok hmade
  exact ⟨rfl, hbounded, rfl⟩

lemma Quoted.updated (h : Quoted core s) (issued amount : Int64) (c : Side) :
    Quoted core ((s.addToSupply issued).addToBalance amount c) := by
  cases c <;> exact ⟨h.supply, h.base, h.quote⟩

variable {target : SymbolType}

lemma convertOnce_supply (hs : Quoted core s) (hinput : input.symbol = ramcoreSymbol)
    (h : s.convertOnce p input target = .ok (s', out)) : ∃ c, (s.balance c).symbol = target ∧
      out.symbol = target ∧ out.Bounded ∧ s' = (s.addToSupply (-input.amount)).addToBalance (-out.amount) c := by
  rw [ExchangeState.convertOnce, if_neg (not_not.mpr (hinput.trans hs.supply.symm))] at h
  split_ifs at h with hbase hquote
  · obtain ⟨hsym, hbounded, rfl⟩ := convertFromExchange_ok h
    exact ⟨.base, hbase.symm, hsym.trans hbase.symm, hbounded, rfl⟩
  · obtain ⟨hsym, hbounded, rfl⟩ := convertFromExchange_ok h
    exact ⟨.quote, hquote.symm, hsym.trans hquote.symm, hbounded, rfl⟩

lemma convertOnce_connector (hs : Quoted core s) (hinput : input.symbol ≠ ramcoreSymbol)
    (h : s.convertOnce p input target = .ok (s', out)) : ∃ c issued, (s.balance c).symbol = input.symbol ∧
      out.symbol = ramcoreSymbol ∧ s' = (s.addToSupply issued).addToBalance input.amount c := by
  rw [ExchangeState.convertOnce, if_pos (fun heq => hinput (heq.trans hs.supply))] at h
  split_ifs at h with hbase hquote
  · obtain ⟨hsym, issued, rfl⟩ := convertToExchange_ok h
    exact ⟨.base, issued, hbase.symm, hsym.trans hs.supply, rfl⟩
  · obtain ⟨hsym, issued, rfl⟩ := convertToExchange_ok h
    exact ⟨.quote, issued, hquote.symm, hsym.trans hs.supply, rfl⟩

lemma Quoted.side_of_ram (h : Quoted core s) (hcore : core ≠ ramSymbol) (hc : (s.balance c).symbol = ramSymbol) :
    c = .base := by
  cases c with
  | base => rfl
  | quote => exact absurd (h.quote.symm.trans hc) hcore

lemma Quoted.side_of_core (h : Quoted core s) (hcore : core ≠ ramSymbol) (hc : (s.balance c).symbol = core) :
    c = .quote := by
  cases c with
  | base => exact absurd (hc.symm.trans h.base) hcore
  | quote => rfl

lemma convert_through (hs : Quoted core s) (hinput : input.symbol ≠ ramcoreSymbol)
    (htarget : target ≠ ramcoreSymbol) (h : s.convert p input target = .ok (s', out)) :
    ∃ c c' i j, (s.balance c).symbol = input.symbol ∧ (s.balance c').symbol = target ∧ out.symbol = target ∧
      out.Bounded ∧ s' = (((s.addToSupply i).addToBalance input.amount c).addToSupply j).addToBalance (-out.amount) c' := by
  obtain ⟨⟨u, mid⟩, hfirst, h⟩ := bind_ok h
  obtain ⟨c, i, hc, hmid, rfl⟩ := convertOnce_connector hs hinput hfirst
  have hne : target ≠ mid.symbol := fun heq => htarget (heq.trans hmid)
  dsimp only at h
  rw [if_pos hne] at h
  obtain ⟨c', hc', hout, hbounded, rfl⟩ := convertOnce_supply (hs.updated _ _ _) hmid h
  refine ⟨c, c', i, _, hc, ?_, hout, hbounded, rfl⟩
  rw [← hc']
  cases c <;> cases c' <;> rfl

lemma convert_core_to_ram (hcore : core ≠ ramSymbol) (hcore' : core ≠ ramcoreSymbol) (hs : Quoted core s)
    (hinput : input.symbol = core) (h : s.convert p input ramSymbol = .ok (s', out)) :
    Quoted core s' ∧ out.Bounded ∧ s'.quote.amount = s.quote.amount + input.amount ∧
      s'.base.amount = s.base.amount + -out.amount := by
  obtain ⟨c, c', i, j, hc, hc', -, hbounded, rfl⟩ :=
    convert_through hs (hinput ▸ hcore') (by decide) h
  obtain rfl := hs.side_of_core hcore (hc.trans hinput)
  obtain rfl := hs.side_of_ram hcore hc'
  exact ⟨(hs.updated _ _ _).updated _ _ _, hbounded, rfl, rfl⟩

lemma convert_ram_to_core (hcore : core ≠ ramSymbol) (hcore' : core ≠ ramcoreSymbol) (hs : Quoted core s)
    (hinput : input.symbol = ramSymbol) (h : s.convert p input core = .ok (s', out)) :
    Quoted core s' ∧ out.symbol = core ∧ out.Bounded ∧ s'.base.amount = s.base.amount + input.amount ∧
      s'.quote.amount = s.quote.amount + -out.amount := by
  obtain ⟨c, c', i, j, hc, hc', hout, hbounded, rfl⟩ :=
    convert_through hs (hinput ▸ by decide) hcore' h
  obtain rfl := hs.side_of_ram hcore (hc.trans hinput)
  obtain rfl := hs.side_of_core hcore hc'
  exact ⟨(hs.updated _ _ _).updated _ _ _, hout, hbounded, rfl, rfl⟩

lemma convert_other_to_ram (hcore : core ≠ ramSymbol) (hs : Quoted core s) (hinput : input.symbol ≠ core)
    (h : s.convert p input ramSymbol = .ok (s', out)) : s'.quote = s.quote := by
  by_cases hsupply : input.symbol = ramcoreSymbol
  · obtain ⟨⟨u, mid⟩, hfirst, h⟩ := bind_ok h
    obtain ⟨c, hc, hmid, -, rfl⟩ := convertOnce_supply hs hsupply hfirst
    obtain rfl := hs.side_of_ram hcore hc
    dsimp only at h
    rw [if_neg (not_not.mpr hmid.symm)] at h
    cases h
    rfl
  · obtain ⟨c, c', i, j, hc, hc', -, -, rfl⟩ := convert_through hs hsupply (by decide) h
    obtain rfl := hs.side_of_ram hcore hc'
    cases c with
    | base => rfl
    | quote => exact absurd (hc.symm.trans hs.quote) hinput

end

section

variable {env : Staking.Env} {t t' : Staking.Tables} {inlines : List InlineTransfer} {a : Staking.Action}

def ramAt (userres : FlatMap AccountName UserResources) (a : AccountName) : ℤ :=
  (userres.find? a).elim 0 fun w => w.ramBytes.toInt

def ramSum (userres : FlatMap AccountName UserResources) : ℤ := userres.sum fun _ w => w.ramBytes.toInt

lemma ramSum_set (userres : FlatMap AccountName UserResources) (a : AccountName) (w : UserResources) :
    ramSum (userres.set a w) = ramSum userres - ramAt userres a + w.ramBytes.toInt := by
  have hset := userres.sum_set a w fun _ w => w.ramBytes.toInt
  rw [ramSum, ramSum, ramAt]
  omega

def SameRam (u u' : FlatMap AccountName UserResources) : Prop := ramSum u' = ramSum u ∧ ∀ a, ramAt u' a = ramAt u a

variable {net cpu : Asset} {sender receiver : AccountName} {transfer : Bool}

lemma updateTotals_ram {receiver : AccountName}
    (h : env.updateTotals t receiver net cpu = .ok t') : SameRam t.userres t'.userres := by
  obtain ⟨w, -, h⟩ := bind_ok h
  obtain ⟨-, -, h⟩ := bind_ok h
  obtain ⟨empty, hempty, h⟩ := bind_ok h
  have hrow : ((t.userres.find? receiver).elim 0 UserResources.ramBytes).toInt = ramAt t.userres receiver := by
    rw [ramAt]
    cases t.userres.find? receiver <;> rfl
  have hsame : ∀ u : FlatMap AccountName UserResources, (∀ j, j ≠ receiver → u.find? j = t.userres.find? j) →
      ramAt u receiver = ramAt t.userres receiver → SameRam t.userres u := by
    intro u hother hself
    refine ⟨?_, fun j => ?_⟩
    · have hsum := sum_eq_of_agree hother fun _ w => w.ramBytes.toInt
      rw [ramAt, ramAt] at hself
      rw [ramSum, hsum, hself, sub_self, add_zero, ramSum]
    · by_cases hj : j = receiver
      · rw [hj, hself]
      · rw [ramAt, hother j hj, ramAt]
  cases empty with
  | true =>
    cases h
    have hzero := Except.ok.inj (both_true.mp hempty).2
    rw [decide_eq_true_eq] at hzero
    rw [hzero] at hrow
    apply hsame _ (fun j hj => find?_erase_of_ne _ hj.symm)
    rw [← hrow, ramAt, find?_erase_self]
    rfl
  | false =>
    cases h
    apply hsame _ (fun j hj => find?_set_of_ne _ _ hj.symm)
    rw [← hrow, ramAt, find?_set_self]
    rfl

lemma changebw_ram {signer receiver : AccountName}
    (h : env.changebw t signer receiver net cpu transfer = .ok (t', inlines)) : SameRam t.userres t'.userres := by
  obtain ⟨sum, t1, t2, t3, -, h1, h2, h3, h4⟩ := changebw_steps h
  obtain ⟨delband, rfl⟩ := updateDelegated_frame h1
  obtain ⟨refunds, scheduled, rfl⟩ := settle_frame h3
  obtain ⟨voters, rfl⟩ := updateVotingPower_frame h4
  have hram := updateTotals_ram h2
  exact hram

lemma run_ram (h : env.run t a = .ok (t', inlines)) : SameRam t.userres t'.userres := by
  cases a with
  | delegatebw signer receiver net cpu transfer =>
    obtain ⟨-, -, -, -, -, h⟩ := delegatebw_ok h
    exact changebw_ram h
  | undelegatebw signer receiver net cpu =>
    obtain ⟨-, -, -, -, h⟩ := undelegatebw_ok h
    exact changebw_ram h
  | refund owner =>
    obtain ⟨-, -, -, -, rfl, -⟩ := refund_ok h
    exact ⟨rfl, fun _ => rfl⟩

end

section

variable {env : Staking.Env} {p : Pricing} {t t' : State} {inlines : List InlineTransfer}
  {payer receiver account : AccountName} {quant : Asset}

lemma setResourceLimits_ok {row : UserResources} {u : Unit} (h : setResourceLimits env account row = .ok u) :
    -1 ≤ row.ramBytes.toInt := by
  obtain ⟨hram, -⟩ := eosAssert_ok h
  exact Int64.le_iff_toInt_le.mp hram

lemma boughtRow_ramBytes (userres : FlatMap AccountName UserResources) {bytes : Int64} (hbytes : 0 < bytes.toInt)
    (hbound : bytes.toInt ≤ 2 ^ 62 - 1) (hrow : 0 ≤ ramAt userres receiver)
    (hlimit : -1 ≤ (boughtRow env bytes (userres.find? receiver)).ramBytes.toInt) :
    (boughtRow env bytes (userres.find? receiver)).ramBytes.toInt = ramAt userres receiver + bytes.toInt := by
  rw [ramAt] at hrow ⊢
  cases hr : userres.find? receiver with
  | none => exact (zero_add _).symm
  | some row =>
    rw [hr] at hrow hlimit
    simp only [boughtRow, Option.elim_some] at hrow hlimit ⊢
    have hlt := Int64.toInt_lt row.ramBytes
    rw [Int64.toInt_add, Int.bmod] at hlimit
    apply toInt_add_eq
    · omega
    · split_ifs at hlimit <;> omega

structure Bought (env : Staking.Env) (p : Pricing) (t : State) (payer receiver : AccountName) (quant paid out : Asset)
    (t' : State) (inlines : List InlineTransfer) : Prop where
  symbol : paid.symbol = quant.symbol
  market : t.market.convert p paid ramSymbol = .ok (t'.market, out)
  positive : 0 < out.value
  limit : -1 ≤ (boughtRow env out.amount (t.staking.userres.find? receiver)).ramBytes.toInt
  userres : t'.staking.userres =
    t.staking.userres.set receiver (boughtRow env out.amount (t.staking.userres.find? receiver))
  refunds : t'.staking.refunds = t.staking.refunds
  maxRamSize : t'.global.maxRamSize = t.global.maxRamSize
  reserved : t'.global.totalRamBytesReserved = t.global.totalRamBytesReserved + out.amount.toUInt64
  stake : t'.global.totalRamStake = t.global.totalRamStake + paid.amount
  inlines : ∃ fees, inlines = ⟨payer, ramAccount, paid, "buy ram"⟩ :: fees ∧
    ∀ i ∈ fees, i.sender = payer ∧ i.recipient = ramfeeAccount

lemma buyram_ok (h : buyram env p t payer receiver quant = .ok (t', inlines)) :
    ∃ paid out, Bought env p t payer receiver quant paid out t' inlines := by
  obtain ⟨-, h⟩ := eosAssert_ok h
  obtain ⟨-, h⟩ := eosioAssert_ok h
  obtain ⟨⟨market, out⟩, hmarket, h⟩ := bind_ok h
  obtain ⟨hpos, h⟩ := eosioAssert_ok h
  obtain ⟨_, hlimits, h⟩ := bind_ok h
  cases h
  refine ⟨{ quant with amount := quant.amount - feeOf quant.amount }, out, rfl, hmarket,
    Int64.lt_iff_toInt_lt.mp hpos, setResourceLimits_ok hlimits, rfl, rfl, rfl, rfl, rfl, _, rfl, fun i hi => ?_⟩
  split_ifs at hi
  · obtain rfl := List.mem_singleton.mp hi
    exact ⟨rfl, rfl⟩
  · cases hi

structure Sold (env : Staking.Env) (p : Pricing) (t : State) (account : AccountName) (bytes : Int64) (out : Asset)
    (row : UserResources) (t' : State) (inlines : List InlineTransfer) : Prop where
  positive : 0 < bytes.toInt
  found : t.staking.userres.find? account = some row
  quota : bytes.toInt ≤ row.ramBytes.toInt
  market : t.market.convert p ⟨bytes, ramSymbol⟩ env.core = .ok (t'.market, out)
  received : 1 < out.value
  userres : t'.staking.userres = t.staking.userres.set account { row with ramBytes := row.ramBytes - bytes }
  refunds : t'.staking.refunds = t.staking.refunds
  maxRamSize : t'.global.maxRamSize = t.global.maxRamSize
  reserved : t'.global.totalRamBytesReserved = t.global.totalRamBytesReserved - bytes.toUInt64
  stake : t'.global.totalRamStake = t.global.totalRamStake - out.amount
  nonneg : 0 ≤ t'.global.totalRamStake.toInt
  inlines : ∃ fees, inlines = ⟨ramAccount, account, out, "sell ram"⟩ :: fees ∧
    ∀ i ∈ fees, i.sender = account ∧ i.recipient = ramfeeAccount

lemma sellram_ok {bytes : Int64} (h : sellram env p t account bytes = .ok (t', inlines)) :
    ∃ out row, Sold env p t account bytes out row t' inlines := by
  obtain ⟨-, h⟩ := eosAssert_ok h
  obtain ⟨hpos, h⟩ := eosioAssert_ok h
  obtain ⟨row, hrow, h⟩ := bind_ok h
  obtain ⟨hquota, h⟩ := eosioAssert_ok h
  obtain ⟨input, hinput, h⟩ := bind_ok h
  obtain ⟨rfl, -⟩ := makeAsset_ok hinput
  obtain ⟨⟨market, out⟩, hmarket, h⟩ := bind_ok h
  obtain ⟨hreceived, h⟩ := eosioAssert_ok h
  obtain ⟨hnonneg, h⟩ := eosioAssert_ok h
  obtain ⟨-, -, h⟩ := bind_ok h
  obtain ⟨fees, hfees, h⟩ := bind_ok h
  cases h
  refine ⟨out, row, Int64.lt_iff_toInt_lt.mp hpos, Token.Tables.getRow_ok hrow, Int64.le_iff_toInt_le.mp hquota,
    hmarket, Int64.lt_iff_toInt_lt.mp hreceived, rfl, rfl, rfl, rfl, rfl, Int64.le_iff_toInt_le.mp hnonneg, fees, rfl,
    fun i hi => ?_⟩
  rw [sellFee] at hfees
  split_ifs at hfees
  · obtain ⟨fee, -, hfees⟩ := bind_ok hfees
    cases hfees
    obtain rfl := List.mem_singleton.mp hi
    exact ⟨rfl, rfl⟩
  · cases hfees
    cases hi

end

end XosChain.Ram
