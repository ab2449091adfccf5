import XosChain.Lib.Words
import XosChain.SystemContract.Effects

namespace XosChain.SystemContract

open Lib Staking FlatMap List NameBid

section

variable {env : Env} {s s' : State} {timestamp : UInt32} {producer : AccountName} {b r : NameBid}

structure BidOk (k : AccountName) (b : NameBid) : Prop where
  newname : b.newname = k
  nonzero : b.highBid.toInt ≠ 0
  bounded : -(2 ^ 63) < b.highBid.toInt

def BidsOk (bids : FlatMap AccountName NameBid) : Prop := ∀ k b, bids.find? k = some b → BidOk k b

variable {bids : FlatMap AccountName NameBid} {k : AccountName}

lemma BidsOk.find_of_mem (h : BidsOk s.bids) (hb : b ∈ s.bids.values) : s.bids.find? b.newname = some b := by
  obtain ⟨⟨k, c⟩, hmem, rfl⟩ := mem_map.mp hb
  have hfind := (s.bids.find?_eq_some_iff k c).mpr hmem
  rw [(h k c hfind).newname]
  exact hfind

lemma mem_values (h : s.bids.find? k = some b) : b ∈ s.bids.values :=
  mem_map.mpr ⟨(k, b), (s.bids.find?_eq_some_iff k b).mp h, rfl⟩

lemma byHighBid_open (h : BidOk k b) (hopen : 0 < b.highBid.toInt) :
    (b.byHighBid.toNat : ℤ) = 2 ^ 64 - b.highBid.toInt := by
  have hneg := toInt_neg_eq h.bounded
  rw [byHighBid, toNat_toUInt64_of_neg (by omega), hneg]
  ring

lemma byHighBid_closed (h : BidOk k b) (hclosed : ¬ 0 < b.highBid.toInt) :
    (b.byHighBid.toNat : ℤ) = -b.highBid.toInt := by
  have hneg := toInt_neg_eq h.bounded
  rw [byHighBid, toNat_toUInt64 (by omega), hneg]

structure Greatest (bids : FlatMap AccountName NameBid) (r : NameBid) : Prop where
  row : bids.find? r.newname = some r
  positive : 0 < r.highBid.toInt
  best : ∀ k b, bids.find? k = some b → 0 < b.highBid.toInt →
    b.highBid.toInt < r.highBid.toInt ∨ b.highBid.toInt = r.highBid.toInt ∧ r.newname ≤ b.newname

lemma Greatest.unique (h : Greatest bids r) (h' : Greatest bids b) : r = b := by
  have hname : r.newname = b.newname := by
    rcases h.best _ b h'.row h'.positive with hlt | ⟨heq, hle⟩
    · rcases h'.best _ r h.row h.positive with hlt' | ⟨heq', _⟩ <;> omega
    · rcases h'.best _ r h.row h.positive with hlt' | ⟨_, hle'⟩
      · omega
      · exact le_antisymm hle hle'
  have hrow := h.row
  rw [hname, h'.row] at hrow
  exact (Option.some.inj hrow).symm

lemma Greatest.of_entries (hrow : (r.newname, r) ∈ bids.entries) (hpos : 0 < r.highBid.toInt)
    (hbest : ∀ e ∈ bids.entries, 0 < e.2.highBid.toInt →
      e.2.highBid.toInt < r.highBid.toInt ∨ e.2.highBid.toInt = r.highBid.toInt ∧ r.newname ≤ e.2.newname) :
    Greatest bids r :=
  ⟨(bids.find?_eq_some_iff _ r).mpr hrow, hpos, fun k b hb => hbest (k, b) ((bids.find?_eq_some_iff k b).mp hb)⟩

def AllOpen (bids : FlatMap AccountName NameBid) : Prop := ∀ k b, bids.find? k = some b → 0 < b.highBid.toInt

lemma firstBid_open (hok : BidsOk s.bids) (hfirst : s.firstBid = some b) (hopen : 0 < b.highBid.toInt) :
    AllOpen s.bids ∧ Greatest s.bids b := by
  have hrow := hok.find_of_mem (argmin_mem hfirst)
  have hb := hok _ b hrow
  have hkey := byHighBid_open hb hopen
  have hfirst' : ∀ k c, s.bids.find? k = some c → b.byHighBid.toNat < c.byHighBid.toNat ∨
      b.byHighBid.toNat = c.byHighBid.toNat ∧ b.newname ≤ c.newname := by
    intro k c hc
    have hle := le_of_mem_argmin (mem_values hc) hfirst
    exact Prod.Lex.toLex_le_toLex.mp hle
  have hall : AllOpen s.bids := by
    intro k c hc
    by_contra hclosed
    have hckey := byHighBid_closed (hok k c hc) hclosed
    have hlow := (hok k c hc).bounded
    have hhigh := Int64.toInt_lt b.highBid
    rcases hfirst' k c hc with hlt | ⟨heq, _⟩ <;> omega
  refine ⟨hall, hrow, hopen, fun k c hc hcopen => ?_⟩
  have hckey := byHighBid_open (hok k c hc) hcopen
  rcases hfirst' k c hc with hlt | ⟨heq, hle⟩
  · exact .inl (by omega)
  · exact .inr ⟨by omega, hle⟩

lemma closeName_ok (hok : BidsOk s.bids) : BidsOk (closeName env s timestamp).bids := by
  rw [closeName]
  split
  · exact hok
  · next b hfirst =>
    split_ifs with hclose
    · have hb := hok _ b (hok.find_of_mem (argmin_mem hfirst))
      have hpos : 0 < b.highBid.toInt := Int64.lt_iff_toInt_lt.mp hclose.1
      have hneg := toInt_neg_eq hb.bounded
      have hlt := Int64.toInt_lt b.highBid
      refine forall_set hok ⟨rfl, ?_, ?_⟩
      · change (-b.highBid).toInt ≠ 0
        omega
      · change _ < (-b.highBid).toInt
        omega
    · exact hok

lemma onblock_ok (hok : BidsOk s.bids) (h : onblock env s timestamp producer = .ok s') : BidsOk s'.bids := by
  have hcredited : BidsOk (credited env s producer).bids := by
    rw [(credited_keeps env s producer).1]
    exact hok
  rcases onblock_cases h with ⟨-, rfl⟩ | ⟨-, rfl | rfl | rfl⟩
  · exact hok
  · exact hcredited
  · exact hcredited
  · exact closeName_ok hcredited

lemma run_ok {t : System} {a : Action} {inlines : List Inline} (hok : BidsOk t.state.bids)
    (h : t.run env a = .ok (s', inlines)) : BidsOk s'.bids := by
  cases a with
  | onblock timestamp producer =>
    obtain ⟨u, hu, h⟩ := bind_ok h
    cases h
    exact onblock_ok hok hu
  | claimrewards owner =>
    obtain ⟨_, _, _, _, _, -, -, -, -, rfl⟩ := claimrewards_cases h
    exact hok
  | regproducer | unregprod | rmvproducer | bidname | newaccount =>
    rcases (run_quiet h nofun nofun).bids with hbids | ⟨k, hbids⟩ | ⟨k, bidder, highBid, time, hpos, hbids⟩ <;> rw [hbids]
    · exact hok
    · exact forall_erase hok
    · exact forall_set hok ⟨rfl, hpos.ne', lt_trans (by norm_num) hpos⟩

lemma Run.bidsOk {t : System} (h : Run t) : BidsOk t.state.bids := by
  induction h with
  | start htoken hglobal hproducers hbids =>
    intro k b hb
    rw [hbids] at hb
    cases hb
  | step env a h hs ih =>
    obtain ⟨inlines, hrun, -⟩ := apply_cases hs
    exact run_ok ih hrun

end

section

def OlderThanADay (env : Env) (r : NameBid) : Prop := r.lastBidTime.toNat + 24 * 3600 * 1000000 < env.currentTime.toNat

def ClosesBest (env : Env) (timestamp : UInt32) (s s' : State) : Prop :=
  ∀ r, Greatest s.bids r →
    (OlderThanADay env r ∧ s'.bids = s.bids.set r.newname { r with highBid := -r.highBid } ∧
      s'.global.lastNameClose = timestamp) ∨
    (¬ OlderThanADay env r ∧ s'.bids = s.bids ∧ s'.global.lastNameClose = s.global.lastNameClose)

variable {env : Env} {s : State} {timestamp : UInt32} {producer : AccountName} {r : NameBid}

lemma outdated_iff (env : Env) (r : NameBid) : r.outdated env ↔ OlderThanADay env r := by
  have hepoch := UInt64.le_iff_toNat_le.mp env.afterEpoch
  have hsub : (env.currentTime - usecondsPerDay).toNat = env.currentTime.toNat - usecondsPerDay.toNat :=
    UInt64.toNat_sub_of_le _ _ (UInt64.le_iff_toNat_le.mpr (le_trans (by decide) hepoch))
  have hday : usecondsPerDay.toNat = 24 * 3600 * 1000000 := rfl
  have hlarge : (946684800000000 : UInt64).toNat = 946684800000000 := rfl
  rw [outdated, UInt64.lt_iff_toNat_lt, hsub, hday, OlderThanADay]
  omega

lemma exists_firstBid (hr : Greatest s.bids r) : ∃ b, s.firstBid = some b := by
  cases hfirst : s.firstBid with
  | none =>
    have hempty := argmin_eq_none.mp hfirst
    have hmem := mem_values hr.row
    rw [hempty] at hmem
    cases hmem
  | some b => exact ⟨b, rfl⟩

lemma closeName_of_allOpen (hok : BidsOk s.bids) (hr : Greatest s.bids r) (hstake : env.stakeActivated)
    (hall : AllOpen s.bids) (hold : OlderThanADay env r) : closeName env s timestamp = { s with
      global := { s.global with lastNameClose := timestamp }
      bids := s.bids.set r.newname { r with highBid := -r.highBid } } := by
  obtain ⟨b, hfirst⟩ := exists_firstBid hr
  have hopen := hall _ b (hok.find_of_mem (argmin_mem hfirst))
  obtain rfl := (firstBid_open hok hfirst hopen).2.unique hr
  have hcond : b.highBid > 0 ∧ b.outdated env ∧ env.stakeActivated :=
    ⟨Int64.lt_iff_toInt_lt.mpr hopen, (outdated_iff env b).mpr hold, hstake⟩
  simp only [closeName, hfirst, if_pos hcond]

lemma closeName_of_not (hok : BidsOk s.bids) (hr : Greatest s.bids r)
    (hnot : ¬ (AllOpen s.bids ∧ OlderThanADay env r)) : closeName env s timestamp = s := by
  obtain ⟨b, hfirst⟩ := exists_firstBid hr
  have hcond : ¬ (b.highBid > 0 ∧ b.outdated env ∧ env.stakeActivated) := by
    rintro ⟨hpos, hold, -⟩
    obtain ⟨hall, hb⟩ := firstBid_open hok hfirst (Int64.lt_iff_toInt_lt.mp hpos)
    obtain rfl := hb.unique hr
    exact hnot ⟨hall, (outdated_iff env b).mp hold⟩
  simp only [closeName, hfirst, if_neg hcond]

theorem closes_best_iff {s s' : System} (h : Run s) (hs : s.apply env (.onblock timestamp producer) = .ok s')
    (hactivated : env.activated = true) (hschedule : timestamp - s.state.global.lastProducerScheduleUpdate > 120)
    (hday : timestamp - s.state.global.lastNameClose > blocksPerDay) (hstake : env.stakeActivated) :
    ClosesBest env timestamp s.state s'.state ↔
      AllOpen s.state.bids ∨ ∀ r, Greatest s.state.bids r → ¬ OlderThanADay env r := by
  obtain ⟨inlines, hrun, -⟩ := apply_cases hs
  obtain ⟨t, ht, hrun⟩ := bind_ok hrun
  cases hrun
  have hclose := onblock_closes hactivated hschedule hday ht
  obtain ⟨hbids, fill, total, hglobal⟩ := credited_keeps env s.state producer
  have hbids' : (scheduled env s.state timestamp producer).bids = s.state.bids := hbids
  have hlast : (scheduled env s.state timestamp producer).global.lastNameClose = s.state.global.lastNameClose := by
    change (credited env s.state producer).global.lastNameClose = _
    rw [hglobal]
  have hok := h.bidsOk
  rw [← hbids'] at hok
  constructor
  · intro hcloses
    by_contra hno
    push Not at hno
    obtain ⟨hclosed, r, hr, hold⟩ := hno
    have hr' := hr
    rw [← hbids'] at hr' hclosed
    have hsame : closeName env (scheduled env s.state timestamp producer) timestamp = _ :=
      closeName_of_not hok hr' fun h => hclosed h.1
    rcases hcloses r hr with ⟨-, hset, -⟩ | ⟨hnot, -⟩
    · have hrow := hr.row
      rw [hclose, hsame, hbids'] at hset
      rw [hset, find?_set_self] at hrow
      have hneg := congrArg (fun b => b.highBid.toInt) (Option.some.inj hrow)
      have hpos := hr.positive
      have hflip : (-r.highBid).toInt = -r.highBid.toInt := toInt_neg_eq (by omega)
      simp only [hflip] at hneg
      omega
    · exact hnot hold
  · intro hcase r hr
    have hr' := hr
    rw [← hbids'] at hr' hcase
    by_cases hold : OlderThanADay env r
    · have hall : AllOpen (scheduled env s.state timestamp producer).bids := by
        rcases hcase with hall | hnone
        · exact hall
        · exact absurd hold (hnone r hr')
      rw [hclose, closeName_of_allOpen hok hr' hstake hall hold, hbids']
      exact .inl ⟨hold, rfl, rfl⟩
    · rw [hclose, closeName_of_not hok hr' fun h => hold h.2]
      exact .inr ⟨hold, hbids', hlast⟩

end

section

def envAt (time : UInt64) (htime : 946684800000000 ≤ time) : Env :=
  { self := 9, hasAuth := fun _ => true, isAccount := fun a => a < 2 || a = namesAccount, core := sysSymbol, now := 5,
    currentTime := time, afterEpoch := htime }

def firstDay : Env := envAt 1600000000000000 firstDay_afterEpoch
def thirdDay : Env := envAt 1600172800000000 (by decide)
def fifthDay : Env := envAt 1600345600000000 (by decide)

def nameA : AccountName := 3458764513820540928
def nameB : AccountName := 4035225266123964416

def sysTokens : Result Token.Tables := do
  let t ← ({} : Token.Tables).apply firstDay.toEnv (.create 1 ⟨5000000, sysSymbol⟩)
  t.apply firstDay.toEnv (.issue 1 ⟨1000000, sysSymbol⟩ "")

lemma sysTokens_run {token : Token.Tables} (h : sysTokens = .ok token) : Run ⟨token, {}⟩ := by
  obtain ⟨t, ht, h⟩ := bind_ok h
  exact .start (.step _ _ (.step _ _ .start ht) h) rfl rfl rfl

theorem unclaimed_auction_blocks : ∃ s s' r, Run s ∧ s.apply fifthDay (.onblock 2000000 1) = .ok s' ∧
    s.state.global.lastProducerScheduleUpdate = 1000000 ∧ s.state.global.lastNameClose = 1000000 ∧
    fifthDay.activated = true ∧ fifthDay.stakeActivated ∧ Greatest s.state.bids r ∧ OlderThanADay fifthDay r ∧
    ¬ ClosesBest fifthDay 2000000 s.state s'.state := by
  have hok : (sysTokens >>= fun token =>
      System.apply firstDay ⟨token, {}⟩ (.bidname 1 nameA ⟨300, sysSymbol⟩) >>= fun s1 =>
      s1.apply firstDay (.bidname 1 nameB ⟨200, sysSymbol⟩) >>= fun s2 =>
      s2.apply thirdDay (.onblock 1000000 1) >>= fun s3 =>
      s3.apply fifthDay (.onblock 2000000 1) >>= fun s4 => pure (s3, s4)).map
      (fun r => (r.1.state.global, r.1.state.bids.entries, decide (r.2.state.bids = r.1.state.bids))) =
      .ok (⟨1000000, 1600172800000000, 0, 0, 0, 1000000⟩,
        [(nameA, ⟨nameA, 1, -300, 1600000000000000⟩), (nameB, ⟨nameB, 1, 200, 1600000000000000⟩)], true) := by
    decide +kernel
  obtain ⟨⟨s3, s4⟩, hrun, hview⟩ := exists_of_map_ok hok
  simp only [result_bind] at hrun
  obtain ⟨token, htoken, s1, h1, s2, h2, s3, h3, s4, h4, hrun⟩ := hrun
  cases hrun
  obtain ⟨hglobal, hview⟩ := Prod.mk.inj hview
  obtain ⟨hentries, hsame⟩ := Prod.mk.inj hview
  have hgreatest : Greatest s3.state.bids ⟨nameB, 1, 200, 1600000000000000⟩ :=
    .of_entries (by rw [hentries]; decide) (by decide) (by rw [hentries]; decide)
  have hold : OlderThanADay fifthDay ⟨nameB, 1, 200, 1600000000000000⟩ := by
    change 1600000000000000 + 24 * 3600 * 1000000 < 1600345600000000
    norm_num
  refine ⟨s3, s4, _, .step _ _ (.step _ _ (.step _ _ (sysTokens_run htoken) h1) h2) h3, h4, by rw [hglobal],
    by rw [hglobal], rfl, ?_, hgreatest, hold, fun hcloses => ?_⟩
  · decide
  · rcases hcloses _ hgreatest with ⟨-, hset, -⟩ | ⟨hnot, -⟩
    · rw [of_decide_eq_true hsame] at hset
      have hrow := hgreatest.row
      rw [hset, find?_set_self] at hrow
      cases hrow
    · exact hnot hold

theorem best_of_two_closes : ∃ s s' r, Run s ∧ s.apply thirdDay (.onblock 1000000 1) = .ok s' ∧
    s.state.bids.entries.length = 2 ∧ Greatest s.state.bids r ∧ OlderThanADay thirdDay r ∧
    ClosesBest thirdDay 1000000 s.state s'.state := by
  have hok : (sysTokens >>= fun token =>
      System.apply firstDay ⟨token, {}⟩ (.bidname 1 nameA ⟨300, sysSymbol⟩) >>= fun s1 =>
      s1.apply firstDay (.bidname 1 nameB ⟨200, sysSymbol⟩) >>= fun s2 =>
      s2.apply thirdDay (.onblock 1000000 1) >>= fun s3 => pure (s2, s3)).map
      (fun r => (r.1.state.global, r.1.state.bids.entries)) =
      .ok ({}, [(nameA, ⟨nameA, 1, 300, 1600000000000000⟩), (nameB, ⟨nameB, 1, 200, 1600000000000000⟩)]) := by
    decide +kernel
  obtain ⟨⟨s2, s3⟩, hrun, hview⟩ := exists_of_map_ok hok
  simp only [result_bind] at hrun
  obtain ⟨token, htoken, s1, h1, s2, h2, s3, h3, hrun⟩ := hrun
  cases hrun
  obtain ⟨hglobal, hentries⟩ := Prod.mk.inj hview
  have hgreatest : Greatest s2.state.bids ⟨nameA, 1, 300, 1600000000000000⟩ :=
    .of_entries (by rw [hentries]; decide) (by decide) (by rw [hentries]; decide)
  have hold : OlderThanADay thirdDay ⟨nameA, 1, 300, 1600000000000000⟩ := by
    change 1600000000000000 + 24 * 3600 * 1000000 < 1600172800000000
    norm_num
  have hall : AllOpen s2.state.bids := by
    intro k b hb
    have hb := (s2.state.bids.find?_eq_some_iff k b).mp hb
    rw [hentries] at hb
    obtain ⟨rfl, rfl⟩ | ⟨rfl, rfl⟩ := by simpa using hb
    · decide
    · decide
  have hrun := Run.step _ _ (Run.step _ _ (sysTokens_run htoken) h1) h2
  refine ⟨s2, s3, _, hrun, h3, by rw [hentries]; rfl, hgreatest, hold,
    (closes_best_iff hrun h3 rfl ?_ ?_ ?_).mpr (.inl hall)⟩
  · rw [hglobal]
    decide
  · rw [hglobal]
    decide
  · decide

end

end XosChain.SystemContract
