import XosChain.Dedup.Node

namespace XosChain.Dedup

open Lib List FlatMap Node

variable {s : Settings} {n n' : Node} {t : Table} {time : ℕ} {chain : List BlockSession}

def IdsDetermineExpiration (p : Packing) : Prop := ∀ x y, p.id x = p.id y → x.expiration = y.expiration

def receiptsOf (chain : List BlockSession) : List Transaction := chain.flatMap BlockSession.receipts

def Covers (s : Settings) (chain : List BlockSession) (t : Table) (time : ℕ) : Prop :=
  ∀ x ∈ receiptsOf chain, t.find? (s.packing.id x) = some x.expiration ∨ timePoint x.expiration < time

def Sound (s : Settings) (base : ℕ) : List BlockSession → Table → Prop
  | [], _ => True
  | b :: chain, t =>
    (chain.head?.elim base BlockSession.time) < b.time ∧ Covers s (b :: chain) t b.time ∧
      ((receiptsOf (b :: chain)).map s.packing.id).Nodup ∧ Sound s base chain b.before

variable {base : ℕ}

lemma Sound.covers (h : Sound s base chain t) : Covers s chain t (chain.head?.elim base BlockSession.time) := by
  cases chain with
  | nil => exact fun x hx => absurd hx not_mem_nil
  | cons b chain => exact h.2.1

lemma Sound.nodup (h : Sound s base chain t) : ((receiptsOf chain).map s.packing.id).Nodup := by
  cases chain with
  | nil => exact nodup_nil
  | cons b chain => exact h.2.2.1

lemma Covers.later {when_ : ℕ} (h : Covers s chain t time) (ht : time ≤ when_) : Covers s chain t when_ :=
  fun x hx => (h x hx).imp_right (fun hlt => hlt.trans_le ht)

lemma Covers.clear {when_ : ℕ} (h : Covers s chain t when_) :
    Covers s chain (clearExpiredInputTransactions when_ t) when_ := by
  intro x hx
  rcases h x hx with hfind | hlt
  · rcases lt_or_ge (timePoint x.expiration) when_ with hlt | hge
    · exact .inr hlt
    · refine .inl ?_
      rw [find?_clear, hfind]
      simp [Option.filter, hge]
  · exact .inr hlt

lemma Sound.startBlock {base when_ : ℕ} (h : Sound s base chain t)
    (ht : chain.head?.elim base BlockSession.time < when_) (clears : Bool) :
    Sound s base (⟨when_, [], t⟩ :: chain) (if clears then clearExpiredInputTransactions when_ t else t) := by
  have hcovers : Covers s (⟨when_, [], t⟩ :: chain) t when_ := h.covers.later ht.le
  refine ⟨ht, ?_, h.nodup, h⟩
  split_ifs
  · exact hcovers.clear
  · exact hcovers

lemma Covers.not_mem (hid : IdsDetermineExpiration s.packing) (h : Covers s chain t time) {x : Transaction}
    (hx : time ≤ timePoint x.expiration) (hn : t.find? (s.packing.id x) = none) :
    s.packing.id x ∉ (receiptsOf chain).map s.packing.id := by
  intro hm
  obtain ⟨y, hy, hyx⟩ := mem_map.mp hm
  rcases h y hy with hfind | hlt
  · rw [hyx, hn] at hfind
    cases hfind
  · rw [hid y x hyx] at hlt
    exact absurd hx (not_le.mpr hlt)

lemma pushTransaction_records (hr : s.replayHeadTime = none) {i : InputTrx} {t' : Table}
    (h : pushTransaction s time t i = .ok t') :
    (s.skipTrxChecks = false → time ≤ timePoint i.trx.expiration) ∧ t.find? (s.packing.id i.trx) = none ∧
      t' = t.set (s.packing.id i.trx) i.trx.expiration := by
  obtain ⟨t1, h1, h⟩ := bind_ok h
  obtain ⟨-, -, h⟩ := bind_ok h
  cases h
  obtain ⟨u, hu, h1⟩ := bind_ok h1
  obtain ⟨-, -, h1⟩ := bind_ok h1
  rw [record, skipRecording, hr, Option.any_none] at h1
  obtain ⟨hn, ht⟩ := recordTransaction_ok.mp h1
  exact ⟨fun hs => trxChecks_ok hs hu, hn, ht⟩

lemma Sound.push (hid : IdsDetermineExpiration s.packing) {b : BlockSession}
    (h : Sound s base (b :: chain) t) {x : Transaction} (hx : b.time ≤ timePoint x.expiration)
    (hn : t.find? (s.packing.id x) = none) :
    Sound s base ({ b with receipts := x :: b.receipts } :: chain) (t.set (s.packing.id x) x.expiration) := by
  obtain ⟨htime, hcovers, hnodup, hbelow⟩ := h
  have hnew := hcovers.not_mem hid hx hn
  refine ⟨htime, ?_, nodup_cons.mpr ⟨hnew, hnodup⟩, hbelow⟩
  intro y hy
  rcases mem_cons.mp (show y ∈ x :: receiptsOf (b :: chain) from hy) with rfl | hy
  · exact .inl (find?_set_self _ _ _)
  · have hne : s.packing.id x ≠ s.packing.id y := fun he => hnew (he ▸ mem_map_of_mem hy)
    rw [find?_set_of_ne _ _ hne]
    exact hcovers y hy

section

variable (hs : s.skipTrxChecks = false) (hr : s.replayHeadTime = none) (hid : IdsDetermineExpiration s.packing)

include hs hr hid

lemma step_sound {op : Op} (h : Sound s n.base n.blocks n.table) (hstep : n.step s op = .ok n') :
    Sound s n'.base n'.blocks n'.table := by
  obtain ⟨base, chain, pending, t⟩ := n
  cases op with
  | startBlock when_ clears =>
    obtain ⟨hp, hstep⟩ := eosAssert_ok hstep
    obtain ⟨ht, hstep⟩ := eosAssert_ok hstep
    cases hstep
    obtain rfl : pending = none := Option.isNone_iff_eq_none.mp hp
    exact Sound.startBlock h ht clears
  | push i =>
    cases pending with
    | none => cases hstep
    | some b =>
      obtain ⟨t', ht', hstep⟩ := bind_ok hstep
      cases hstep
      obtain ⟨hx, hn, rfl⟩ := pushTransaction_records hr ht'
      exact Sound.push hid h (hx hs) hn
  | commitBlock =>
    cases pending with
    | none => cases hstep
    | some b =>
      cases hstep
      exact h
  | abortBlock =>
    cases pending with
    | none =>
      cases hstep
      exact h
    | some b =>
      cases hstep
      exact h.2.2.2
  | popBlock =>
    cases pending with
    | some b => cases hstep
    | none =>
      cases chain with
      | nil => cases hstep
      | cons b chain =>
        cases hstep
        exact h.2.2.2

lemma run_sound (ops : List Op) (h : Sound s n.base n.blocks n.table) :
    Sound s (n.run s ops).1.base (n.run s ops).1.blocks (n.run s ops).1.table := by
  induction ops generalizing n with
  | nil => exact h
  | cons op ops ih =>
    apply ih
    rw [exec]
    cases hstep : n.step s op with
    | ok n' => exact step_sound hs hr hid h hstep
    | error e => exact h

end

theorem input_trx_ids_nodup (hs : s.skipTrxChecks = false) (hr : s.replayHeadTime = none)
    (hid : IdsDetermineExpiration s.packing) (base : ℕ) (ops : List Op) :
    (((run s { base } ops).1.receipts).map s.packing.id).Nodup :=
  (run_sound hs hr hid ops (show Sound s base [] empty from trivial)).nodup

def expirationSettings : Settings := ⟨⟨fun x => x.expiration, fun _ => 0⟩, 3600, false, none⟩

def expiring (expiration : ℕ) : InputTrx := { trx := { expiration } }

def boundaryOps : List Op :=
  [.startBlock 500000 true, .push (expiring 1), .push (expiring 1), .commitBlock, .startBlock 1000000 true,
    .push (expiring 1), .commitBlock, .startBlock 1500000 true, .push (expiring 1)]

theorem boundaryOps_nodup :
    (run expirationSettings { base := 0 } boundaryOps).2.map (Option.map Thrown.code) =
        [none, none, some .txDuplicate, none, none, some .txDuplicate, none, none, some .expiredTxException] ∧
      (((run expirationSettings { base := 0 } boundaryOps).1.receipts).map
        expirationSettings.packing.id).Nodup :=
  ⟨by decide, input_trx_ids_nodup rfl rfl (fun _ _ h => h) 0 boundaryOps⟩

end XosChain.Dedup
