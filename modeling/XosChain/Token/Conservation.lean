import XosChain.Token.Ledger

namespace XosChain.Token

open Lib FlatMap List Option

namespace Tables

variable {env : Env} {t t' u : Tables} {owner sender recipient : AccountName} {quantity value b : Asset} {memo : String}
  {sym : SymbolName} {delta : ℤ} {st : CurrencyStats}

def held (t : Tables) (sym : SymbolName) : ℤ := t.accounts.sum fun k b => if (ofLex k).2 = sym then b.value else 0

def balance (t : Tables) (owner : AccountName) (sym : SymbolName) : ℤ :=
  (t.accounts.find? (toLex (owner, sym))).elim 0 Asset.value

structure Shaped (t : Tables) : Prop where
  stat : ∀ sym st, t.stat.find? sym = some st →
    st.supply.symbol.name = sym ∧ st.maxSupply.symbol = st.supply.symbol ∧ st.supply.Bounded ∧ st.maxSupply.Bounded
  balance : ∀ owner sym b, t.accounts.find? (toLex (owner, sym)) = some b →
    0 ≤ b.value ∧ b.Bounded ∧ ∃ st, t.stat.find? sym = some st ∧ b.symbol = st.supply.symbol

structure Conserved (t : Tables) : Prop extends Shaped t where
  supply : ∀ sym st, t.stat.find? sym = some st →
    st.supply.value = t.held sym ∧ st.supply.value ≤ st.maxSupply.value

structure Credited (t : Tables) (owner : AccountName) (value : Asset) (delta : ℤ) (t' : Tables) : Prop where
  stat : t'.stat = t.stat
  other : ∀ o s, toLex (o, s) ≠ toLex (owner, value.symbol.name) →
    t'.accounts.find? (toLex (o, s)) = t.accounts.find? (toLex (o, s))
  stored : ∀ b, t'.accounts.find? (toLex (owner, value.symbol.name)) = some b →
    0 ≤ b.value ∧ b.Bounded ∧ b.symbol = value.symbol
  balance : t'.balance owner value.symbol.name = t.balance owner value.symbol.name + delta

lemma elim_held (o : Option Asset) (name sym : SymbolName) :
    (o.elim 0 fun b => if name = sym then b.value else 0) = if name = sym then o.elim 0 Asset.value else 0 := by
  cases o <;> simp

lemma Credited.held (h : t.Credited owner value delta t') (sym : SymbolName) :
    t'.held sym = t.held sym + if value.symbol.name = sym then delta else 0 := by
  have hagree : ∀ k, k ≠ toLex (owner, value.symbol.name) → t'.accounts.find? k = t.accounts.find? k :=
    fun k hk => h.other (ofLex k).1 (ofLex k).2 hk
  have hsum := sum_eq_of_agree hagree fun k b => if (ofLex k).2 = sym then b.value else 0
  have hb : (t'.accounts.find? _).elim 0 Asset.value = (t.accounts.find? _).elim 0 Asset.value + delta := h.balance
  rw [Tables.held, hsum, ofLex_toLex, elim_held, elim_held, hb]
  split_ifs <;> simp [Tables.held]

lemma held_nonneg (h : t.Shaped) (sym : SymbolName) : 0 ≤ t.held sym := by
  refine sum_nonneg fun n hn => ?_
  obtain ⟨⟨k, b⟩, he, rfl⟩ := mem_map.mp hn
  dsimp only
  split_ifs
  · exact (h.balance (ofLex k).1 (ofLex k).2 b ((t.accounts.find?_eq_some_iff k b).mpr he)).1
  · exact le_rfl

lemma held_of_no_stat (h : t.Shaped) (hs : t.stat.find? sym = none) : t.held sym = 0 := by
  refine sum_eq_zero fun n hn => ?_
  obtain ⟨⟨k, b⟩, he, rfl⟩ := mem_map.mp hn
  refine if_neg fun hk => ?_
  obtain ⟨-, -, st, hst, -⟩ := h.balance (ofLex k).1 (ofLex k).2 b ((t.accounts.find?_eq_some_iff k b).mpr he)
  rw [show (ofLex k).2 = sym from hk, hs] at hst
  cases hst

lemma balance_le_held (h : t.Shaped) : t.balance owner sym ≤ t.held sym := by
  rw [held, ← t.accounts.sum_erase (toLex (owner, sym)), ofLex_toLex, elim_held, if_pos rfl]
  refine le_add_of_nonneg_left (sum_nonneg fun n hn => ?_)
  obtain ⟨⟨k, b⟩, he, rfl⟩ := mem_map.mp hn
  dsimp only
  split_ifs
  · have hrow := (t.accounts.find?_eq_some_iff k b).mpr (mem_eraseEntry he)
    exact (h.balance (ofLex k).1 (ofLex k).2 b hrow).1
  · exact le_rfl

lemma balance_le_max (h : t.Conserved) : t.balance owner sym ≤ 2 ^ 62 - 1 := by
  have hle : t.balance owner sym ≤ t.held sym := balance_le_held h.toShaped
  cases hst : t.stat.find? sym with
  | none =>
    rw [held_of_no_stat h.toShaped hst] at hle
    omega
  | some st =>
    obtain ⟨-, -, -, -, hmax⟩ := h.stat sym st hst
    obtain ⟨hheld, hsupply⟩ := h.supply sym st hst
    omega

lemma balance_nonneg (h : t.Shaped) : 0 ≤ t.balance owner sym := by
  rw [balance]
  cases hb : t.accounts.find? (toLex (owner, sym)) with
  | none => exact le_rfl
  | some b => exact (h.balance owner sym b hb).1

lemma Credited.shaped (h : t.Credited owner value delta t') (ht : t.Shaped)
    (hst : t.stat.find? value.symbol.name = some st) (hs : value.symbol = st.supply.symbol) : t'.Shaped where
  stat := by
    rw [h.stat]
    exact ht.stat
  balance := by
    intro o s b hb
    rw [h.stat]
    by_cases hk : toLex (o, s) = toLex (owner, value.symbol.name)
    · obtain ⟨rfl, rfl⟩ := Prod.mk.inj (toLex.injective hk)
      obtain ⟨hpos, hbound, hsym⟩ := h.stored b hb
      exact ⟨hpos, hbound, st, hst, hsym.trans hs⟩
    · rw [h.other o s hk] at hb
      exact ht.balance o s b hb

lemma getRow_ok {κ ν : Type} [LinearOrder κ] {table : FlatMap κ ν} {key : κ} {message : String} {row : ν}
    (h : getRow table key message = .ok row) : table.find? key = some row := by
  rw [getRow] at h
  split at h
  · rename_i hf
    rw [hf, Except.ok.inj h]
  · cases h

lemma Credited.set (b : Asset) (hnonneg : 0 ≤ b.value) (hbound : b.Bounded) (hsym : b.symbol = value.symbol)
    (hvalue : b.value = t.balance owner value.symbol.name + delta) :
    t.Credited owner value delta { t with accounts := t.accounts.set (toLex (owner, value.symbol.name)) b } where
  stat := rfl
  other := fun o s hk => find?_set_of_ne _ _ (Ne.symm hk)
  stored := by
    intro b' hb
    obtain rfl := some.inj ((find?_set_self _ _ _).symm.trans hb)
    exact ⟨hnonneg, hbound, hsym⟩
  balance := by rw [← hvalue, Tables.balance, find?_set_self]; rfl

section

variable (ht : t.Shaped) (hst : t.stat.find? value.symbol.name = some st) (hs : value.symbol = st.supply.symbol)
  (hv : value.Bounded)

include ht hst hs hv

lemma addBalance_credited (hpos : 0 ≤ value.value) (h : t.addBalance owner value = .ok t') :
    t.Credited owner value value.value t' := by
  rw [addBalance] at h
  split at h
  · rename_i hf
    cases h
    exact .set value hpos hv rfl (by simp [balance, hf])
  · rename_i old hf
    obtain ⟨b, hadd, h⟩ := bind_ok h
    cases h
    obtain ⟨hold, hbold, st', hst', hsold⟩ := ht.balance _ _ _ hf
    obtain rfl := some.inj (hst.symm.trans hst')
    obtain ⟨-, hsym, hbound, -⟩ := Asset.add_ok hadd
    have hval := Asset.add_value hadd hbold hv
    exact .set b (by omega) hbound (by rw [hsym, hsold, hs]) (by simp [balance, hf, hval])

lemma subBalance_credited (h : t.subBalance owner value = .ok t') : t.Credited owner value (-value.value) t' := by
  obtain ⟨old, hf, h⟩ := bind_ok h
  replace hf := getRow_ok hf
  obtain ⟨hge, h⟩ := eosioAssert_ok h
  obtain ⟨hold, hbold, st', hst', hsold⟩ := ht.balance _ _ _ hf
  obtain rfl := some.inj (hst.symm.trans hst')
  split_ifs at h with heq
  · cases h
    have hval : old.value = value.value := congrArg Int64.toInt heq
    exact {
      stat := rfl
      other := fun o s hk => find?_erase_of_ne _ (Ne.symm hk)
      stored := by
        intro b hb
        rw [find?_erase_self] at hb
        cases hb
      balance := by simp [balance, hf, hval] }
  · obtain ⟨b, hsub, h⟩ := bind_ok h
    cases h
    obtain ⟨-, hsym, hbound, -⟩ := Asset.sub_ok hsub
    have hval := Asset.sub_value hsub hbold hv
    have hle : value.value ≤ old.value := Int64.le_iff_toInt_le.mp hge
    exact .set b (by omega) hbound (by rw [hsym, hsold, hs]) (by simp [balance, hf, hval, sub_eq_add_neg])

end

structure Moved (t : Tables) (sender recipient : AccountName) (quantity : Asset) (t' : Tables) : Prop where
  conserved : t'.Conserved
  stat : t'.stat = t.stat
  positive : 0 < quantity.value
  bounded : quantity.Bounded
  distinct : sender ≠ recipient
  other : ∀ o s, (o ≠ sender ∧ o ≠ recipient) ∨ s ≠ quantity.symbol.name →
    t'.accounts.find? (toLex (o, s)) = t.accounts.find? (toLex (o, s))
  sent : t'.balance sender quantity.symbol.name = t.balance sender quantity.symbol.name - quantity.value
  received : t'.balance recipient quantity.symbol.name = t.balance recipient quantity.symbol.name + quantity.value

variable {a b : AccountName} {s s' : SymbolName}

lemma toLex_ne_of_left (h : a ≠ b) : toLex (a, s) ≠ toLex (b, s') :=
  fun he => h (Prod.mk.inj (toLex.injective he)).1

lemma toLex_ne_of_right (h : s ≠ s') : toLex (a, s) ≠ toLex (b, s') :=
  fun he => h (Prod.mk.inj (toLex.injective he)).2

lemma toInt_pos {n : Int64} (h : n > 0) : 0 < n.toInt := Int64.lt_iff_toInt_lt.mp h

lemma transfer_moved (ht : t.Conserved) (h : t.transfer env sender recipient quantity memo = .ok t') :
    t.Moved sender recipient quantity t' := by
  obtain ⟨hne, h⟩ := eosioAssert_ok h
  obtain ⟨-, h⟩ := eosAssert_ok h
  obtain ⟨-, h⟩ := eosioAssert_ok h
  obtain ⟨st, hst, h⟩ := bind_ok h
  replace hst := getRow_ok hst
  obtain ⟨hvalid, h⟩ := eosioAssert_ok h
  obtain ⟨hpos, h⟩ := eosioAssert_ok h
  obtain ⟨hsym, h⟩ := eosioAssert_ok h
  obtain ⟨-, h⟩ := eosioAssert_ok h
  obtain ⟨u, hsub, h⟩ := bind_ok h
  obtain ⟨v, hadd, h⟩ := bind_ok h
  obtain ⟨-, -, h⟩ := bind_ok h
  obtain ⟨-, -, h⟩ := bind_ok h
  cases h
  have hbound := Asset.isValid_bounded hvalid
  have hpos : 0 < quantity.value := toInt_pos hpos
  have hdebit := subBalance_credited ht.toShaped hst hsym hbound hsub
  have hu := hdebit.shaped ht.toShaped hst hsym
  have hcredit := addBalance_credited hu (hdebit.stat ▸ hst) hsym hbound hpos.le hadd
  exact {
    conserved := by
      refine ⟨hcredit.shaped hu (hdebit.stat ▸ hst) hsym, fun sym st' hst' => ?_⟩
      rw [hcredit.stat, hdebit.stat] at hst'
      rw [hcredit.held, hdebit.held, add_assoc]
      obtain ⟨hheld, hle⟩ := ht.supply sym st' hst'
      refine ⟨?_, hle⟩
      rw [hheld]
      split_ifs <;> simp
    stat := hcredit.stat.trans hdebit.stat
    positive := hpos
    bounded := hbound
    distinct := hne
    other := by
      rintro o s (⟨hs, hr⟩ | hs)
      · rw [hcredit.other o s (toLex_ne_of_left hr), hdebit.other o s (toLex_ne_of_left hs)]
      · rw [hcredit.other o s (toLex_ne_of_right hs), hdebit.other o s (toLex_ne_of_right hs)]
    sent := by
      rw [balance, hcredit.other _ _ (toLex_ne_of_left hne)]
      exact hdebit.balance
    received := by
      have hold := hdebit.other recipient quantity.symbol.name (toLex_ne_of_left hne.symm)
      rw [hcredit.balance, balance, hold]
      rfl }

def SameElsewhere (sym : SymbolName) (t t' : Tables) : Prop :=
  ∀ s, s ≠ sym → t'.stat.find? s = t.stat.find? s ∧
    ∀ o, t'.accounts.find? (toLex (o, s)) = t.accounts.find? (toLex (o, s))

lemma SameElsewhere.trans (h : SameElsewhere sym t u) (h' : SameElsewhere sym u t') : SameElsewhere sym t t' :=
  fun s hs => ⟨((h' s hs).1).trans (h s hs).1, fun o => ((h' s hs).2 o).trans ((h s hs).2 o)⟩

lemma Moved.sameElsewhere (h : t.Moved sender recipient quantity t') : SameElsewhere quantity.symbol.name t t' :=
  fun s hs => ⟨by rw [h.stat], fun o => h.other o s (.inr hs)⟩

lemma create_conserved {issuer : AccountName} (ht : t.Conserved) (h : t.create env issuer value = .ok t') :
    t'.Conserved ∧ SameElsewhere value.symbol.name t t' := by
  obtain ⟨-, h⟩ := eosAssert_ok h
  obtain ⟨-, h⟩ := eosioAssert_ok h
  obtain ⟨hvalid, h⟩ := eosioAssert_ok h
  obtain ⟨hpos, h⟩ := eosioAssert_ok h
  obtain ⟨hnone, h⟩ := eosioAssert_ok h
  cases h
  have hbound := Asset.isValid_bounded hvalid
  have hpos : 0 < value.value := toInt_pos hpos
  refine ⟨⟨⟨?_, fun o s b hb => ?_⟩, ?_⟩, fun s hs => ⟨?_, fun _ => rfl⟩⟩
  · exact forall_set ht.stat ⟨rfl, rfl, Asset.bounded_zero _, hbound⟩
  · obtain ⟨hnonneg, hb, st, hst, hsym⟩ := ht.balance o s b hb
    refine ⟨hnonneg, hb, st, ?_, hsym⟩
    rw [find?_set_of_ne _ _ (fun he => ?_)]
    · exact hst
    · rw [← he, hnone] at hst
      cases hst
  · exact forall_set ht.supply ⟨(held_of_no_stat ht.toShaped hnone).symm, hpos.le⟩
  · exact find?_set_of_ne _ _ (Ne.symm hs)

lemma issue_ok (h : t.issue env recipient quantity memo = .ok t') : ∃ st supply u,
    t.stat.find? quantity.symbol.name = some st ∧ quantity.Bounded ∧ 0 < quantity.value ∧
    quantity.symbol = st.supply.symbol ∧ quantity.amount ≤ st.maxSupply.amount - st.supply.amount ∧
    st.supply.add quantity = .ok supply ∧
    ({ t with stat := t.stat.set quantity.symbol.name { st with supply } } : Tables).addBalance st.issuer quantity = .ok u ∧
    (t' = u ∨ ∃ env', u.transfer env' st.issuer recipient quantity memo = .ok t') := by
  iterate 3 obtain ⟨-, h⟩ := eosioAssert_ok h
  obtain ⟨st, hst, h⟩ := bind_ok h
  obtain ⟨-, h⟩ := eosAssert_ok h
  obtain ⟨hvalid, h⟩ := eosioAssert_ok h
  obtain ⟨hpos, h⟩ := eosioAssert_ok h
  obtain ⟨hsym, h⟩ := eosioAssert_ok h
  obtain ⟨havail, h⟩ := eosioAssert_ok h
  obtain ⟨supply, hadd, h⟩ := bind_ok h
  obtain ⟨u, hcredit, h⟩ := bind_ok h
  refine ⟨st, supply, u, getRow_ok hst, Asset.isValid_bounded hvalid, toInt_pos hpos, hsym, havail, hadd, hcredit, ?_⟩
  split at h
  · obtain ⟨-, -, h⟩ := bind_ok h
    exact .inr ⟨_, h⟩
  · exact .inl (Except.ok.inj h).symm

lemma Shaped.setStat (st' : CurrencyStats) (ht : t.Shaped) (hst : t.stat.find? sym = some st)
    (hsym : st'.supply.symbol = st.supply.symbol) (hmax : st'.maxSupply = st.maxSupply) (hb : st'.supply.Bounded) :
    ({ t with stat := t.stat.set sym st' } : Tables).Shaped := by
  obtain ⟨hname, hmsym, -, hmb⟩ := ht.stat sym st hst
  refine ⟨?_, fun o s b hrow => ?_⟩
  · refine forall_set ht.stat ?_
    rw [hsym, hmax]
    exact ⟨hname, hmsym, hb, hmb⟩
  · obtain ⟨hnonneg, hbound, st1, hst1, hbsym⟩ := ht.balance o s b hrow
    refine ⟨hnonneg, hbound, ?_⟩
    rw [find?_set]
    split_ifs with hs
    · rw [← hs, hst] at hst1
      exact ⟨st', rfl, by rw [hbsym, ← some.inj hst1, hsym]⟩
    · exact ⟨st1, hst1, hbsym⟩

lemma issue_room (ht : t.Conserved) (hst : t.stat.find? sym = some st)
    (h : quantity.amount ≤ st.maxSupply.amount - st.supply.amount) :
    quantity.value ≤ st.maxSupply.value - st.supply.value := by
  have hnonneg := held_nonneg ht.toShaped sym
  obtain ⟨-, -, -, hl, hu⟩ := ht.stat sym st hst
  obtain ⟨hheld, hle⟩ := ht.supply sym st hst
  have hdiff := Int64.le_iff_toInt_le.mp h
  rw [Int64.toInt_sub, Asset.bmod_of_bounded] at hdiff
  · exact hdiff
  · change _ ≤ st.maxSupply.value - st.supply.value
    omega
  · change st.maxSupply.value - st.supply.value < _
    omega

lemma issue_conserved (ht : t.Conserved) (h : t.issue env recipient quantity memo = .ok t') :
    t'.Conserved ∧ SameElsewhere quantity.symbol.name t t' := by
  obtain ⟨st, supply, u, hst, hbound, hpos, hsym, havail, hadd, hcredit, hrest⟩ := issue_ok h
  have hroom := issue_room ht hst havail
  obtain ⟨hheld, hle⟩ := ht.supply _ st hst
  obtain ⟨-, hssym, hsb, -⟩ := Asset.add_ok hadd
  have hsval := Asset.add_value hadd (ht.stat _ st hst).2.2.1 hbound
  have ht1 := ht.toShaped.setStat { st with supply } hst hssym rfl hsb
  have hst1 := find?_set_self t.stat quantity.symbol.name { st with supply }
  have hc := addBalance_credited ht1 hst1 (hsym.trans hssym.symm) hbound hpos.le hcredit
  have hu : u.Conserved := by
    refine ⟨hc.shaped ht1 hst1 (hsym.trans hssym.symm), fun sym st' hst' => ?_⟩
    rw [hc.stat, find?_set] at hst'
    rw [hc.held]
    change _ = t.held sym + _ ∧ _
    split_ifs at hst' ⊢ with hs
    · cases hst'
      rw [← hs, ← hheld]
      change supply.value = _ ∧ supply.value ≤ st.maxSupply.value
      omega
    · rw [add_zero]
      exact ht.supply sym st' hst'
  have hsame : SameElsewhere quantity.symbol.name t u := by
    intro s hs
    rw [hc.stat]
    exact ⟨find?_set_of_ne _ _ (Ne.symm hs), fun o => hc.other o s (toLex_ne_of_right hs)⟩
  rcases hrest with rfl | ⟨env', h⟩
  · exact ⟨hu, hsame⟩
  · have hm := transfer_moved hu h
    exact ⟨hm.conserved, hsame.trans hm.sameElsewhere⟩

lemma apply_conserved {a : Action} (ht : t.Conserved) (h : t.apply env a = .ok t') :
    t'.Conserved ∧ SameElsewhere a.symbol.name t t' := by
  cases a with
  | create issuer maximumSupply => exact create_conserved ht h
  | issue recipient quantity memo => exact issue_conserved ht h
  | transfer sender recipient quantity memo =>
    have hm := transfer_moved ht h
    exact ⟨hm.conserved, hm.sameElsewhere⟩

end Tables

lemma TokenRun.conserved {t : Tables} (h : TokenRun t) : t.Conserved := by
  induction h with
  | start =>
    refine ⟨⟨fun sym st hst => ?_, fun o s b hb => ?_⟩, fun sym st hst => ?_⟩
    · cases hst
    · cases hb
    · cases hst
  | step env a _ hs ih => exact (Tables.apply_conserved ih hs).1

theorem supply_is_sum_of_balances {t : Tables} (h : TokenRun t) :
    (∀ sym st, t.stat.find? sym = some st → st.supply.symbol.name = sym ∧
      st.supply.value = t.accounts.sum (fun k b => if (ofLex k).2 = sym then b.value else 0) ∧
      0 ≤ st.supply.value ∧ st.supply.value ≤ st.maxSupply.value) ∧
    (∀ owner sym b, t.accounts.find? (toLex (owner, sym)) = some b →
      0 ≤ b.value ∧ ∃ st, t.stat.find? sym = some st ∧ b.symbol = st.supply.symbol) ∧
    ∀ env a t', t.apply env a = .ok t' → Tables.SameElsewhere a.symbol.name t t' := by
  have ht := h.conserved
  refine ⟨fun sym st hst => ?_, fun owner sym b hb => ?_, fun env a t' hs => (Tables.apply_conserved ht hs).2⟩
  · obtain ⟨hheld, hle⟩ := ht.supply sym st hst
    refine ⟨(ht.stat sym st hst).1, hheld, ?_, hle⟩
    rw [hheld]
    exact Tables.held_nonneg ht.toShaped sym
  · obtain ⟨hnonneg, -, hst⟩ := ht.balance owner sym b hb
    exact ⟨hnonneg, hst⟩

theorem issued_and_transferred : ∃ t st, TokenRun t ∧ t.stat.find? 5462355 = some st ∧ st.supply.value = 100 ∧
    t.balance 2 5462355 = 60 ∧ t.balance 3 5462355 = 40 ∧
    st.supply.value = t.accounts.sum (fun k b => if (ofLex k).2 = 5462355 then b.value else 0) := by
  let env : Env := { self := 9, hasAuth := fun _ => true }
  let sys (n : Int64) : Asset := ⟨n, ⟨1398362884⟩⟩
  have hok : (({} : Tables).apply env (.create 1 (sys 1000)) >>= fun t => t.apply env (.issue 2 (sys 100) "") >>= fun t =>
      t.apply env (.transfer 2 3 (sys 40) "")).map (fun t => ((t.stat.find? 5462355).map (fun st => st.supply.value),
        t.balance 2 5462355, t.balance 3 5462355)) = .ok (some 100, 60, 40) := by decide +kernel
  obtain ⟨t, hrun, hview⟩ := exists_of_map_ok hok
  obtain ⟨t1, h1, hrun⟩ := bind_ok hrun
  obtain ⟨t2, h2, h3⟩ := bind_ok hrun
  have hr := TokenRun.step env _ (.step env _ (.step env _ .start h1) h2) h3
  obtain ⟨hsupply, hbalances⟩ := Prod.mk.inj hview
  obtain ⟨h2, h3⟩ := Prod.mk.inj hbalances
  obtain ⟨st, hst, hvalue⟩ := map_eq_some_iff.mp hsupply
  exact ⟨t, st, hr, hst, hvalue, h2, h3, ((supply_is_sum_of_balances hr).1 _ st hst).2.1⟩

end XosChain.Token
