import XosChain.Lib.Words
import XosChain.SystemContract.Effects

namespace XosChain.SystemContract

open Lib Staking List

section

variable {env : Env} {s : State} {producers : FlatMap AccountName ProducerInfo} {producer : AccountName}
  {p : ProducerInfo}

def unpaidSum (producers : FlatMap AccountName ProducerInfo) : ℕ := producers.sum fun _ p => p.unpaidBlocks.toNat

lemma unpaidSum_set_add (producers : FlatMap AccountName ProducerInfo) (producer : AccountName) (q : ProducerInfo) :
    unpaidSum (producers.set producer q) + ((producers.find? producer).getD {}).unpaidBlocks.toNat =
      unpaidSum producers + q.unpaidBlocks.toNat := by
  have hsum := producers.sum_set producer q fun _ p => p.unpaidBlocks.toNat
  cases hfind : producers.find? producer <;> rw [hfind] at hsum <;> exact hsum

lemma unpaidSum_set (h : producers.find? producer = some p) (q : ProducerInfo) :
    unpaidSum (producers.set producer q) + p.unpaidBlocks.toNat = unpaidSum producers + q.unpaidBlocks.toNat := by
  have hsum := unpaidSum_set_add producers producer q
  rw [h] at hsum
  exact hsum

lemma unpaidSum_set_same (q : ProducerInfo)
    (hq : q.unpaidBlocks = ((producers.find? producer).getD {}).unpaidBlocks) :
    unpaidSum (producers.set producer q) = unpaidSum producers := by
  have hsum := unpaidSum_set_add producers producer q
  rw [← hq] at hsum
  exact Nat.add_right_cancel hsum

lemma unpaid_le_sum (h : producers.find? producer = some p) : p.unpaidBlocks.toNat ≤ unpaidSum producers := by
  have hsum := unpaidSum_set h { p with unpaidBlocks := 0 }
  have hzero : ({ p with unpaidBlocks := 0 } : ProducerInfo).unpaidBlocks.toNat = 0 := rfl
  omega

def Counted (s : State) : Prop := s.global.totalUnpaidBlocks.toNat = unpaidSum s.producers

lemma countBlock_counted_iff (hs : Counted s) (hp : s.producers.find? producer = some p) :
    Counted (countBlock s producer) ↔
      p.unpaidBlocks.toNat = 2 ^ 32 - 1 ∨ s.global.totalUnpaidBlocks.toNat < 2 ^ 32 - 1 := by
  have hsum := unpaidSum_set hp { p with unpaidBlocks := p.unpaidBlocks + 1 }
  have hle := unpaid_le_sum hp
  have htotal : (s.global.totalUnpaidBlocks + 1).toNat = (s.global.totalUnpaidBlocks.toNat + 1) % 2 ^ 32 :=
    UInt32.toNat_add _ _
  have hunpaid : (p.unpaidBlocks + 1).toNat = (p.unpaidBlocks.toNat + 1) % 2 ^ 32 := UInt32.toNat_add _ _
  have hlt := UInt32.toNat_lt p.unpaidBlocks
  have hlt' := UInt32.toNat_lt s.global.totalUnpaidBlocks
  have hcount : countBlock s producer = { s with
      global := { s.global with totalUnpaidBlocks := s.global.totalUnpaidBlocks + 1 }
      producers := s.producers.set producer { p with unpaidBlocks := p.unpaidBlocks + 1 } } := by
    rw [countBlock, hp]
  rw [Counted] at hs
  rw [Counted, hcount]
  dsimp only at hsum ⊢
  rw [htotal]
  rw [hunpaid] at hsum
  omega

end

section

variable {bucket : Int64} {unpaid total : UInt32}

lemma perBlockPay_of_pos (h : 0 < total.toNat) :
    perBlockPay bucket unpaid total = bucket * unpaid.toUInt64.toInt64 / total.toUInt64.toInt64 := by
  have hpos : total > 0 := UInt32.lt_iff_toNat_lt.mpr h
  rw [perBlockPay, if_pos hpos]

lemma perBlockPay_of_zero (h : total.toNat = 0) : perBlockPay bucket unpaid total = 0 := by
  have hzero : ¬ total > 0 := by
    intro hpos
    have hpos := UInt32.lt_iff_toNat_lt.mp hpos
    rw [h] at hpos
    exact absurd hpos (lt_irrefl _)
  rw [perBlockPay, if_neg hzero]

lemma perBlockPay_iff (hbucket : 0 ≤ bucket.toInt) (hle : unpaid.toNat ≤ total.toNat) :
    (perBlockPay bucket unpaid total).toInt = bucket.toInt * unpaid.toNat / total.toNat ↔
      bucket.toInt * unpaid.toNat < 2 ^ 63 := by
  rcases Nat.eq_zero_or_pos total.toNat with hzero | hpos
  · have hunpaid : unpaid.toNat = 0 := by omega
    rw [perBlockPay_of_zero hzero, hzero, hunpaid]
    simp
  · have hu := toInt_of_uint32 unpaid
    have ht := toInt_of_uint32 total
    have hc : 0 < total.toUInt64.toInt64.toInt := by omega
    rw [perBlockPay_of_pos hpos, ← hu, ← ht]
    constructor
    · intro heq
      by_contra hlarge
      exact absurd heq (toInt_mul_div_lt (not_lt.mp hlarge) hc).ne
    · intro hlt
      have hnonneg : 0 ≤ bucket.toInt * unpaid.toUInt64.toInt64.toInt := by
        rw [hu]
        positivity
      exact toInt_mul_div_eq hnonneg hlt hc

lemma share_le (hbucket : 0 ≤ bucket.toInt) (hle : unpaid.toNat ≤ total.toNat) :
    bucket.toInt * unpaid.toNat / total.toNat ≤ bucket.toInt := by
  rcases Nat.eq_zero_or_pos total.toNat with hzero | hpos
  · rw [hzero, Nat.cast_zero, Int.ediv_zero]
    exact hbucket
  · refine Int.ediv_le_of_le_mul (by exact_mod_cast hpos) ?_
    exact mul_le_mul_of_nonneg_left (by exact_mod_cast hle) hbucket

end

section

variable {env : Env} {t t' : Token.Tables} {g : GlobalState} {supply : Int64}

def fillAmount (env : Env) (g : GlobalState) (supply : Int64) : Int64 :=
  if fillDue env g then (inflationSince env g supply).toPerBlockPay else 0

lemma fillBuckets_perblockBucket (env : Env) (g : GlobalState) (supply : Int64) :
    (fillBuckets env g supply).perblockBucket = g.perblockBucket + fillAmount env g supply := by
  rw [fillBuckets, fillAmount]
  split_ifs
  · rfl
  · exact (Int64.add_zero _).symm

lemma fillBuckets_totalUnpaidBlocks (env : Env) (g : GlobalState) (supply : Int64) :
    (fillBuckets env g supply).totalUnpaidBlocks = g.totalUnpaidBlocks := by
  rw [fillBuckets]
  split_ifs <;> rfl

lemma transfer_positive {sender recipient : AccountName} {quantity : Asset} {memo : String} {e : Token.Env}
    (h : t.transfer e sender recipient quantity memo = .ok t') : 0 < quantity.value := by
  obtain ⟨-, h⟩ := eosioAssert_ok h
  obtain ⟨-, h⟩ := eosAssert_ok h
  obtain ⟨-, h⟩ := eosioAssert_ok h
  obtain ⟨st, -, h⟩ := bind_ok h
  obtain ⟨-, h⟩ := eosioAssert_ok h
  obtain ⟨hpos, -⟩ := eosioAssert_ok h
  exact Token.Tables.toInt_pos hpos

lemma sendInlines_positive {inlines : List Inline} {i : InlineTransfer}
    (h : inlines.foldlM env.sendInline t = .ok t') (hi : Inline.transfer i ∈ inlines) : 0 < i.quantity.value := by
  induction inlines generalizing t with
  | nil => cases hi
  | cons j inlines ih =>
    rw [foldlM_cons] at h
    obtain ⟨u, hu, h⟩ := bind_ok h
    rcases mem_cons.mp hi with rfl | hi
    · obtain ⟨-, -, hu⟩ := bind_ok hu
      exact transfer_positive hu
    · exact ih h hi

lemma mint_funds {i : Inflation} {minted : List Inline} (h : mint env i = .ok minted) :
    ∃ j, Inline.transfer j ∈ minted ∧ j.quantity.value = i.toPerBlockPay.toInt ∧ j.quantity.Bounded := by
  obtain ⟨issued, -, h⟩ := bind_ok h
  obtain ⟨saved, -, h⟩ := bind_ok h
  obtain ⟨funded, hfunded, h⟩ := bind_ok h
  obtain ⟨votes, -, h⟩ := bind_ok h
  cases h
  obtain ⟨rfl, hbounded⟩ := makeAsset_ok hfunded
  exact ⟨_, mem_cons_of_mem _ (mem_cons_of_mem _ mem_cons_self), rfl, hbounded⟩

lemma fillAmount_bounds {minted paid : List Inline} (hminted : mintDue env g supply = .ok minted)
    (h : (minted ++ paid).foldlM env.sendInline t = .ok t') :
    0 ≤ (fillAmount env g supply).toInt ∧ (fillAmount env g supply).toInt < 2 ^ 62 := by
  rw [mintDue] at hminted
  rw [fillAmount]
  split_ifs at hminted ⊢
  · obtain ⟨j, hj, hvalue, hbounded⟩ := mint_funds hminted
    have hpos := sendInlines_positive h (mem_append_left paid hj)
    have hupper := hbounded.2
    omega
  · exact ⟨le_refl _, by decide⟩

end

section

structure Record where
  env : Env
  action : Action
  before : System
  after : System

structure Claim where
  held : Int64
  fill : Int64
  unpaid : UInt32
  total : UInt32
  deriving DecidableEq

def Claim.bucket (c : Claim) : Int64 := c.held + c.fill

def Claim.pay (c : Claim) : Int64 := perBlockPay c.bucket c.unpaid c.total

def Record.claim (r : Record) : Option Claim :=
  match r.action with
  | .claimrewards owner => do
    let prod ← r.before.state.producers.find? owner
    let st ← r.before.token.stat.find? r.env.core.name
    let g := r.before.state.global
    some ⟨g.perblockBucket, fillAmount r.env g st.supply.amount, prod.unpaidBlocks, g.totalUnpaidBlocks⟩
  | _ => none

structure Accounted (r : Record) : Prop where
  counted : Counted r.after.state
  bucket : 0 ≤ r.after.state.global.perblockBucket.toInt
  paid : ∀ c, r.claim = some c → 0 ≤ c.pay.toInt ∧ c.pay.toInt ≤ c.bucket.toInt ∧
    c.pay.toInt = c.bucket.toInt * c.unpaid.toNat / c.total.toNat

structure Regular (r : Record) : Prop where
  block : ∀ timestamp producer p, r.action = .onblock timestamp producer → r.env.activated = true →
    r.before.state.producers.find? producer = some p →
      p.unpaidBlocks.toNat = 2 ^ 32 - 1 ∨ r.before.state.global.totalUnpaidBlocks.toNat < 2 ^ 32 - 1
  claim : ∀ c, r.claim = some c → c.held.toInt + c.fill.toInt < 2 ^ 63 ∧
    (c.held.toInt + c.fill.toInt) * c.unpaid.toNat < 2 ^ 63

def System.records (s : System) : List (Env × Action) → Result (List Record)
  | [] => pure []
  | (env, a) :: steps => do
    let s' ← s.apply env a
    let rs ← s'.records steps
    pure (⟨env, a, s, s'⟩ :: rs)

structure Sound (s : State) : Prop where
  counted : Counted s
  bucket : 0 ≤ s.global.perblockBucket.toInt

variable {env : Env} {s s' : System} {a : Action}

variable {owner : AccountName} {t t' : State} {timestamp : UInt32} {producer : AccountName}

lemma apply_claim (hs : s.apply env (.claimrewards owner) = .ok s') :
    ∃ prod c, s.state.producers.find? owner = some prod ∧ Record.claim ⟨env, .claimrewards owner, s, s'⟩ = some c ∧
      c.held = s.state.global.perblockBucket ∧ c.unpaid = prod.unpaidBlocks ∧
      c.total = s.state.global.totalUnpaidBlocks ∧ 0 ≤ c.fill.toInt ∧ c.fill.toInt < 2 ^ 62 ∧
      s'.state.global.perblockBucket = c.bucket - c.pay ∧ s'.state.global.totalUnpaidBlocks = c.total - c.unpaid ∧
      s'.state.producers = s.state.producers.set owner { prod with lastClaimTime := env.currentTime, unpaidBlocks := 0 } := by
  obtain ⟨inlines, hrun, hsent⟩ := apply_cases hs
  obtain ⟨prod, st, minted, paid, votePay, hprod, hst, hminted, rfl, hstate⟩ := claimrewards_cases hrun
  obtain ⟨hnonneg, hlt⟩ := fillAmount_bounds hminted hsent
  have hbucket := fillBuckets_perblockBucket env s.state.global st.supply.amount
  have htotal := fillBuckets_totalUnpaidBlocks env s.state.global st.supply.amount
  let c : Claim := ⟨s.state.global.perblockBucket, fillAmount env s.state.global st.supply.amount, prod.unpaidBlocks,
    s.state.global.totalUnpaidBlocks⟩
  have hclaim : Record.claim ⟨env, .claimrewards owner, s, s'⟩ = some c := by
    simp only [Record.claim, hprod, hst]
    rfl
  refine ⟨prod, c, hprod, hclaim, rfl, rfl, rfl, hnonneg, hlt, ?_, ?_, ?_⟩
  · rw [hstate]
    dsimp only
    rw [hbucket, htotal]
    rfl
  · rw [hstate]
    dsimp only
    rw [htotal]
  · rw [hstate]

lemma accounted_claim_iff (h : Sound s.state)
    (hs : s.apply env (.claimrewards owner) = .ok s') :
    Accounted ⟨env, .claimrewards owner, s, s'⟩ ↔ Regular ⟨env, .claimrewards owner, s, s'⟩ := by
  obtain ⟨prod, c, hrow, hclaim, hheld, hunpaid, htotal, hnonneg, hlt, hbucket, htotal', hproducers⟩ := apply_claim hs
  have hle : c.unpaid.toNat ≤ c.total.toNat := by
    have hsum := unpaid_le_sum hrow
    have hcounted := h.counted
    rw [Counted] at hcounted
    rw [hunpaid, htotal, hcounted]
    exact hsum
  have hheld' : 0 ≤ c.held.toInt := by
    rw [hheld]
    exact h.bucket
  constructor
  · intro hacc
    obtain ⟨hpay, hpay', hexact⟩ := hacc.paid c hclaim
    have hfits : c.held.toInt + c.fill.toInt < 2 ^ 63 := by
      by_contra hwrap
      have hneg : c.bucket.toInt < 0 := toInt_add_neg (not_lt.mp hwrap)
      omega
    have hsum : c.bucket.toInt = c.held.toInt + c.fill.toInt := toInt_add_eq (by omega) hfits
    refine ⟨nofun, fun d hd => ?_⟩
    obtain rfl := Option.some.inj (hclaim.symm.trans hd)
    refine ⟨hfits, ?_⟩
    rw [← hsum]
    exact (perBlockPay_iff (by omega) hle).mp hexact
  · intro hreg
    obtain ⟨hfits, hprod⟩ := hreg.claim c hclaim
    have hsum : c.bucket.toInt = c.held.toInt + c.fill.toInt := toInt_add_eq (by omega) hfits
    rw [← hsum] at hprod
    have hbound : 0 ≤ c.bucket.toInt := by omega
    have hexact : c.pay.toInt = _ := (perBlockPay_iff hbound hle).mpr hprod
    have hshare := share_le hbound hle
    have hpay : 0 ≤ c.pay.toInt := by
      rw [hexact]
      positivity
    have hpay' : c.pay.toInt ≤ c.bucket.toInt := by
      rw [hexact]
      exact hshare
    have hlt' := Int64.toInt_lt c.bucket
    refine ⟨?_, ?_, fun d hd => ?_⟩
    · rw [Counted, htotal', hproducers, UInt32.toNat_sub_of_le _ _ (UInt32.le_iff_toNat_le.mpr hle)]
      have hset := unpaidSum_set hrow { prod with lastClaimTime := env.currentTime, unpaidBlocks := 0 }
      have hzero : (0 : UInt32).toNat = 0 := rfl
      dsimp only at hset
      have hcounted := h.counted
      rw [Counted, ← htotal] at hcounted
      rw [← hunpaid] at hset
      omega
    · rw [hbucket, toInt_sub_eq (by omega) (by omega)]
      omega
    · obtain rfl := Option.some.inj (hclaim.symm.trans hd)
      exact ⟨hpay, hpay', hexact⟩

lemma Accounted.of_same (h : Sound s.state) (hclaim : Record.claim ⟨env, a, s, s'⟩ = none)
    (hglobal : s'.state.global.perblockBucket = s.state.global.perblockBucket ∧
      s'.state.global.totalUnpaidBlocks = s.state.global.totalUnpaidBlocks)
    (hsum : unpaidSum s'.state.producers = unpaidSum s.state.producers) : Accounted ⟨env, a, s, s'⟩ := by
  refine ⟨?_, ?_, fun c hc => ?_⟩
  · rw [Counted, hglobal.2, hsum]
    exact h.counted
  · rw [hglobal.1]
    exact h.bucket
  · rw [hclaim] at hc
    cases hc

structure SamePay (t t' : State) : Prop where
  bucket : t'.global.perblockBucket = t.global.perblockBucket
  total : t'.global.totalUnpaidBlocks = t.global.totalUnpaidBlocks
  producers : t'.producers = t.producers

lemma startPresses_samePay (env : Env) (t : State) : SamePay t (startPresses env t) := by
  obtain ⟨fill, hfill⟩ := startPresses_cases env t
  rw [hfill]
  exact ⟨rfl, rfl, rfl⟩

lemma closeName_samePay (env : Env) (t : State) (timestamp : UInt32) : SamePay t (closeName env t timestamp) := by
  rw [closeName]
  split
  · exact ⟨rfl, rfl, rfl⟩
  · split_ifs <;> exact ⟨rfl, rfl, rfl⟩

lemma onblock_samePay
    (h : onblock env t timestamp producer = .ok t') :
    env.activated = false ∧ SamePay t t' ∨ env.activated = true ∧ SamePay (credited env t producer) t' := by
  rcases onblock_cases h with ⟨hactivated, rfl⟩ | ⟨hactivated, rfl | rfl | rfl⟩
  · exact .inl ⟨hactivated, rfl, rfl, rfl⟩
  · exact .inr ⟨hactivated, rfl, rfl, rfl⟩
  · exact .inr ⟨hactivated, rfl, rfl, rfl⟩
  · have hclose := closeName_samePay env (scheduled env t timestamp producer) timestamp
    exact .inr ⟨hactivated, hclose.bucket, hclose.total, hclose.producers⟩

lemma SamePay.counted_iff (h : SamePay t t') : Counted t' ↔ Counted t := by
  rw [Counted, Counted, h.total, h.producers]

lemma countBlock_bucket (t : State) (producer : AccountName) :
    (countBlock t producer).global.perblockBucket = t.global.perblockBucket := by
  obtain ⟨-, total, hglobal⟩ := countBlock_keeps t producer
  rw [hglobal]

lemma accounted_onblock_iff (h : Sound s.state)
    (hs : s.apply env (.onblock timestamp producer) = .ok s') :
    Accounted ⟨env, .onblock timestamp producer, s, s'⟩ ↔ Regular ⟨env, .onblock timestamp producer, s, s'⟩ := by
  obtain ⟨inlines, hrun, -⟩ := apply_cases hs
  obtain ⟨t, ht, hrun⟩ := bind_ok hrun
  cases hrun
  have hpresses := startPresses_samePay env s.state
  have hstart : Counted (startPresses env s.state) := hpresses.counted_iff.mpr h.counted
  rcases onblock_samePay ht with ⟨hactivated, hsame⟩ | ⟨hactivated, hsame⟩
  · have hsum : unpaidSum s'.state.producers = unpaidSum s.state.producers := by rw [hsame.producers]
    have hacc : Accounted ⟨env, .onblock timestamp producer, s, s'⟩ :=
      Accounted.of_same h rfl ⟨hsame.bucket, hsame.total⟩ hsum
    refine iff_of_true hacc ⟨fun _ _ _ _ hon => ?_, nofun⟩
    exact absurd (hactivated.symm.trans hon) (by decide)
  · have hbucket : 0 ≤ s'.state.global.perblockBucket.toInt := by
      rw [hsame.bucket, credited, countBlock_bucket, hpresses.bucket]
      exact h.bucket
    constructor
    · intro hacc
      refine ⟨fun _ _ p ha _ hp => ?_, nofun⟩
      cases ha
      have hcounted := hsame.counted_iff.mp hacc.counted
      rw [← hpresses.producers] at hp
      rw [← hpresses.total]
      exact (countBlock_counted_iff hstart hp).mp hcounted
    · intro hreg
      refine ⟨hsame.counted_iff.mpr ?_, hbucket, nofun⟩
      cases hp : s.state.producers.find? producer with
      | none =>
        have hsame' : credited env s.state producer = startPresses env s.state := by
          rw [credited, countBlock, hpresses.producers, hp]
        rw [hsame']
        exact hstart
      | some p =>
        have hblock := hreg.block timestamp producer p rfl hactivated hp
        rw [← hpresses.producers] at hp
        rw [← hpresses.total] at hblock
        exact (countBlock_counted_iff hstart hp).mpr hblock

lemma Quiet.unpaidSum (h : Quiet t t') : unpaidSum t'.producers = unpaidSum t.producers := by
  rcases h.producers with he | ⟨producer, q, he, hq⟩
  · rw [he]
  · rw [he, unpaidSum_set_same q hq]

lemma accounted_iff (h : Sound s.state) (hs : s.apply env a = .ok s') :
    Accounted ⟨env, a, s, s'⟩ ↔ Regular ⟨env, a, s, s'⟩ := by
  obtain ⟨inlines, hrun, -⟩ := apply_cases hs
  cases a with
  | onblock timestamp producer => exact accounted_onblock_iff h hs
  | claimrewards owner => exact accounted_claim_iff h hs
  | regproducer | unregprod | rmvproducer | bidname | newaccount =>
    have hquiet := run_quiet hrun nofun nofun
    exact iff_of_true (Accounted.of_same h rfl (by rw [hquiet.global]; exact ⟨rfl, rfl⟩) hquiet.unpaidSum) ⟨nofun, nofun⟩

lemma records_accounted_iff {steps : List (Env × Action)} {rs : List Record} (h : Sound s.state)
    (hrs : s.records steps = .ok rs) : (∀ r ∈ rs, Accounted r) ↔ ∀ r ∈ rs, Regular r := by
  induction steps generalizing s rs with
  | nil =>
    cases hrs
    exact iff_of_true (forall_mem_nil _) (forall_mem_nil _)
  | cons step steps ih =>
    obtain ⟨env, a⟩ := step
    obtain ⟨t, ht, hrs⟩ := bind_ok hrs
    obtain ⟨rs, hrest, hrs⟩ := bind_ok hrs
    cases hrs
    rw [forall_mem_cons, forall_mem_cons, accounted_iff h ht, and_congr_right_iff]
    intro hregular
    have hacc := (accounted_iff h ht).mpr hregular
    exact ih ⟨hacc.counted, hacc.bucket⟩ hrest

theorem block_pay_accounted_iff {steps : List (Env × Action)} {rs : List Record} (hglobal : s.state.global = {})
    (hproducers : s.state.producers = FlatMap.empty) (hrs : s.records steps = .ok rs) :
    (∀ r ∈ rs, Accounted r) ↔ ∀ r ∈ rs, Regular r := by
  refine records_accounted_iff ⟨?_, ?_⟩ hrs
  · rw [Counted, hglobal, hproducers]
    rfl
  · rw [hglobal]
    exact le_refl _

end

section

def usualEnv : Env :=
  { self := 9, hasAuth := fun _ => true, core := ⟨1398362884⟩, now := 5, currentTime := 1600000000000000,
    afterEpoch := firstDay_afterEpoch }

def nextDay (newTokens : Int64) : Env :=
  { usualEnv with
    currentTime := 1600100000000000
    afterEpoch := by decide
    inflation := fun _ _ => .ofNewTokens newTokens }

def tokenOf (maximum : Int64) : Result System := do
  let t ← ({} : Token.Tables).apply usualEnv.toEnv (.create Config.systemAccountName ⟨maximum, ⟨1398362884⟩⟩)
  pure ⟨t, {}⟩

def producing (blocks : ℕ) (newTokens : Int64) : List (Env × Action) :=
  (usualEnv, .regproducer 1 7 "") :: List.replicate blocks (usualEnv, .onblock 1 1) ++
    [(nextDay newTokens, .claimrewards 1)]

theorem pay_overflows : ∃ s rs r c, tokenOf 4611686018427387903 = .ok s ∧
    s.records (producing 41 4611686018427387000) = .ok rs ∧ r ∈ rs ∧ r.claim = some c ∧
    c.bucket = 230584300921369350 ∧ c.unpaid = 41 ∧ c.total = 41 ∧ c.pay = -219336286242278250 ∧
    r.after.state.global.perblockBucket = 449920587163647600 ∧ ¬ Accounted r := by
  have hok : (tokenOf 4611686018427387903 >>= fun s => s.records (producing 41 4611686018427387000) >>= fun rs =>
      pure (s, rs)).map (fun r => r.2.getLast?.map fun r => (r.claim, r.after.state.global.perblockBucket)) =
      .ok (some (some ⟨0, 230584300921369350, 41, 41⟩, 449920587163647600)) := by
    decide +kernel
  obtain ⟨r, hrun, hlast⟩ := exists_of_map_ok hok
  obtain ⟨s, hs, hrun⟩ := bind_ok hrun
  obtain ⟨rs, hrs, hrun⟩ := bind_ok hrun
  cases hrun
  obtain ⟨r, hr, hview⟩ := Option.map_eq_some_iff.mp hlast
  obtain ⟨hclaim, hbucket⟩ := Prod.mk.inj hview
  have hpay : Claim.pay ⟨0, 230584300921369350, 41, 41⟩ = -219336286242278250 := by decide +kernel
  refine ⟨s, rs, r, _, hs, hrs, mem_of_getLast? hr, hclaim, by decide, rfl, rfl, hpay, hbucket, fun hacc => ?_⟩
  have hnonneg := (hacc.paid _ hclaim).1
  rw [hpay] at hnonneg
  exact absurd hnonneg (by decide)

def withinWords (r : Record) : Bool :=
  r.before.state.global.totalUnpaidBlocks.toNat < 2 ^ 32 - 1 && r.claim.all fun c =>
    c.held.toInt + c.fill.toInt < 2 ^ 63 && (c.held.toInt + c.fill.toInt) * (c.unpaid.toNat : ℤ) < 2 ^ 63

lemma regular_of_withinWords {r : Record} (h : withinWords r = true) : Regular r := by
  obtain ⟨hblock, hclaim⟩ := Bool.and_eq_true_iff.mp h
  refine ⟨fun _ _ _ _ _ _ => .inr (of_decide_eq_true hblock), fun c hc => ?_⟩
  rw [hc] at hclaim
  obtain ⟨hfill, hprod⟩ := Bool.and_eq_true_iff.mp hclaim
  exact ⟨of_decide_eq_true hfill, of_decide_eq_true hprod⟩

theorem two_blocks_paid : ∃ s rs, tokenOf 1000000 = .ok s ∧ s.records (producing 2 200) = .ok rs ∧ rs.length = 4 ∧
    ∀ r ∈ rs, Accounted r := by
  have hok : (tokenOf 1000000 >>= fun s => s.records (producing 2 200) >>= fun rs => pure (s, rs)).map
      (fun r => (r.2.length, r.2.all withinWords)) = .ok (4, true) := by
    decide +kernel
  obtain ⟨r, hrun, hview⟩ := exists_of_map_ok hok
  obtain ⟨s, hs, hrun⟩ := bind_ok hrun
  obtain ⟨rs, hrs, hrun⟩ := bind_ok hrun
  cases hrun
  obtain ⟨hlength, hall⟩ := Prod.mk.inj hview
  obtain ⟨t, ht, hempty⟩ := bind_ok hs
  cases hempty
  refine ⟨_, rs, hs, hrs, hlength, (block_pay_accounted_iff rfl rfl hrs).mpr fun r hr => ?_⟩
  exact regular_of_withinWords (all_eq_true.mp hall r hr)

end

end XosChain.SystemContract
