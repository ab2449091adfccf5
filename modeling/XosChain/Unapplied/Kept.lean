import XosChain.Unapplied.Node

namespace XosChain.Unapplied

open Lib Dedup List Applied FlatMap

variable {s : Settings} {signedId : Signing} {n n' : Node} {a : Applied} {t : SignedTrx}

def SignedIdsDetermineIds (p : Packing) (signedId : Signing) : Prop :=
  ∀ x y, signedId x = signedId y → p.id x.trx = p.id y.trx

def Applied.session (a : Applied) : BlockSession := ⟨a.block.time, (a.block.transactions.map SignedTrx.trx).reverse, a.before⟩

def Node.blocks (n : Node) : List Applied := n.pending.toList ++ n.chain

def BlockState.Unexpired (b : BlockState) : Prop := ∀ t ∈ b.transactions, b.time ≤ timePoint t.trx.expiration

structure Kept (s : Settings) (signedId : Signing) (n : Node) : Prop where
  sound : Sound s n.base (n.blocks.map Applied.session) n.table
  full : ∀ a ∈ n.pending, a.block.trxs = a.block.transactions
  unexpired : ∀ a ∈ n.pending, a.block.Unexpired
  validated : ∀ b ∈ n.forkDb, b.validated = true → b.Unexpired
  owed : ∀ d ∈ n.owed, n.unapplied.find? d ≠ none
  apart : ∀ a ∈ n.blocks, ∀ t ∈ a.block.transactions, n.unapplied.find? (signedId t) = none

lemma foldl_set_eq_none_iff {d : Digest} (l : List SignedTrx) (m : FlatMap Digest SignedTrx) :
    (l.foldl (fun m t => m.set (signedId t) t) m).find? d = none ↔ m.find? d = none ∧ d ∉ l.map signedId := by
  induction l generalizing m with
  | nil => simp
  | cons t l ih =>
    rw [foldl_cons, ih, find?_set, map_cons, mem_cons]
    split_ifs with h
    · simp [h]
    · simp [Ne.symm h]

lemma mem_receiptsOf {l : List Applied} (ha : a ∈ l) (ht : t ∈ a.block.transactions) :
    t.trx ∈ receiptsOf (l.map Applied.session) := by
  refine mem_flatMap.mpr ⟨a.session, mem_map_of_mem ha, ?_⟩
  exact mem_reverse.mpr (mem_map_of_mem ht)

lemma signedId_ne (hsigned : SignedIdsDetermineIds s.packing signedId) {base : ℕ} {table : Table} {rest : List Applied}
    (h : Sound s base ((a :: rest).map Applied.session) table) (ht : t ∈ a.block.transactions) {a' : Applied}
    (ha' : a' ∈ rest) {t' : SignedTrx} (ht' : t' ∈ a'.block.transactions) : signedId t ≠ signedId t' := by
  intro he
  have hnodup := h.nodup
  rw [map_cons, receiptsOf, flatMap_cons, map_append] at hnodup
  have hdisjoint := disjoint_of_nodup_append hnodup
  have hfirst : s.packing.id t.trx ∈ a.session.receipts.map s.packing.id :=
    mem_map_of_mem (mem_reverse.mpr (mem_map_of_mem ht))
  refine hdisjoint hfirst ?_
  rw [hsigned t t' he]
  exact mem_map_of_mem (mem_receiptsOf ha' ht')

section

lemma Kept.startBlock (h : Kept s signedId n) {wanted : ℕ} (hn : n.startBlock wanted = .ok n') :
    Kept s signedId n' := by
  obtain ⟨hp, hn⟩ := eosAssert_ok hn
  obtain ⟨hlater, hn⟩ := eosAssert_ok hn
  cases hn
  have hp : n.pending = none := Option.isNone_iff_eq_none.mp hp
  have hblocks : n.blocks = n.chain := by rw [Node.blocks, hp]; rfl
  have hsound := h.sound
  rw [hblocks] at hsound
  have hhead : (n.chain.map Applied.session).head?.elim n.base BlockSession.time < wanted := by
    have : (n.chain.map Applied.session).head?.elim n.base BlockSession.time = n.headTime := by
      rw [Node.headTime]
      cases n.chain <;> rfl
    rw [this]
    exact hlater
  refine ⟨Sound.startBlock hsound hhead true, ?_, ?_, h.validated, h.owed, ?_⟩
  · intro a ha
    cases ha
    rfl
  · intro a ha t ht
    cases ha
    cases ht
  · intro a ha t ht
    obtain rfl | ha := mem_cons.mp (show a ∈ ⟨{ time := wanted }, n.table⟩ :: n.chain from ha)
    · cases ht
    · exact h.apart a (hblocks ▸ ha) t ht

lemma Kept.settle (h : Kept s signedId n) (t : SignedTrx) : Kept s signedId (n.settle signedId t) := by
  refine ⟨h.sound, h.full, h.unexpired, h.validated, ?_, ?_⟩
  · intro d hd
    obtain ⟨hne, hd⟩ := Finset.mem_erase.mp hd
    rw [Node.settle, find?_erase_of_ne _ (Ne.symm hne)]
    exact h.owed d hd
  · intro a ha t' ht'
    rw [Node.settle, find?_erase]
    split_ifs
    · rfl
    · exact h.apart a ha t' ht'

lemma Kept.failed (h : Kept s signedId n) (t : SignedTrx) (e : Thrown) : Kept s signedId (n.failed signedId t e) := by
  rw [Node.failed]
  split_ifs
  · exact h.settle t
  · exact h

variable {skip : Bool} {block : BlockState}

section

variable (hr : s.replayHeadTime = none) (hid : IdsDetermineExpiration s.packing) (h : Kept s signedId n)

include hr hid h

lemma Kept.addTrx (hp : n.pending = some a) (hskip : skip = true → a.block.time ≤ timePoint t.trx.expiration)
    {i : InputTrx} (hi : i.trx = t.trx) {table : Table}
    (htable : Dedup.pushTransaction { s with skipTrxChecks := skip } a.block.time n.table i = .ok table) :
    Kept s signedId (n.addTrx signedId a t table) := by
  have hr' : ({ s with skipTrxChecks := skip } : Settings).replayHeadTime = none := hr
  obtain ⟨hchecked, hnone, rfl⟩ := pushTransaction_records hr' htable
  rw [hi] at hchecked hnone ⊢
  have hx : a.block.time ≤ timePoint t.trx.expiration := by
    cases skip with
    | true => exact hskip rfl
    | false => exact hchecked rfl
  have hsettled := h.settle t
  have hblocks : n.blocks = a :: n.chain := by rw [Node.blocks, hp]; rfl
  have hsound := h.sound
  rw [hblocks, map_cons] at hsound
  refine ⟨?_, ?_, ?_, h.validated, hsettled.owed, ?_⟩
  · have hpush := Sound.push hid hsound hx hnone
    rw [Node.blocks, Node.addTrx]
    simpa [Applied.session, Node.settle] using hpush
  · intro a' ha'
    cases ha'
    rw [h.full a hp]
  · intro a' ha' t' ht'
    cases ha'
    obtain ht' | ht' := mem_append.mp ht'
    · exact h.unexpired a hp t' ht'
    · obtain rfl := mem_singleton.mp ht'
      exact hx
  · intro a' ha' t' ht'
    obtain rfl | ha' := mem_cons.mp ha'
    · obtain ht' | ht' := mem_append.mp ht'
      · exact hsettled.apart a (show a ∈ n.blocks from hblocks ▸ mem_cons_self) t' ht'
      · obtain rfl := mem_singleton.mp ht'
        exact find?_erase_self _ _
    · exact hsettled.apart a' (show a' ∈ n.blocks from hblocks ▸ mem_cons_of_mem _ ha') t' ht'

lemma Kept.pushTransaction (x : Attempt)
    (hskip : skip = true → ∀ a ∈ n.pending, a.block.time ≤ timePoint t.trx.expiration) :
    Kept s signedId (n.pushTransaction s signedId skip t x).1 := by
  rw [Node.pushTransaction]
  split
  · exact h
  · rename_i a hp
    split
    · rename_i table htable
      exact h.addTrx hr hid hp (fun hs => hskip hs a hp) rfl htable
    · exact h.failed t _

end

section

variable (hsigned : SignedIdsDetermineIds s.packing signedId) (h : Kept s signedId n)

include hsigned h

lemma Kept.undo {rest : List Applied} (hblocks : n.blocks = a :: rest) (hfull : a.block.trxs = a.block.transactions) :
    Kept s signedId { n.undo signedId a with pending := none, chain := rest } := by
  have hsound := h.sound
  rw [hblocks] at hsound
  refine ⟨hsound.2.2.2, fun _ ha => (by cases ha), fun _ ha => (by cases ha), h.validated, ?_, ?_⟩
  · intro d hd hnone
    obtain ⟨hnone, hnot⟩ := (foldl_set_eq_none_iff _ _).mp hnone
    obtain hd | hd := Finset.mem_union.mp hd
    · exact h.owed d hd hnone
    · rw [hfull] at hnot
      exact hnot (mem_toFinset.mp hd)
  · intro a' ha' t' ht'
    have ha' : a' ∈ rest := ha'
    refine (foldl_set_eq_none_iff _ _).mpr ⟨h.apart a' (hblocks ▸ mem_cons_of_mem _ ha') t' ht', ?_⟩
    rw [hfull]
    intro hmem
    obtain ⟨t, ht, he⟩ := mem_map.mp hmem
    exact signedId_ne hsigned hsound ht ha' ht' he

lemma Kept.abortBlock :
    Kept s signedId (n.abortBlock signedId) := by
  rw [Node.abortBlock]
  split
  · exact h
  · rename_i a hp
    exact h.undo hsigned (by rw [Node.blocks, hp]; rfl) (h.full a hp)

lemma Kept.rethrow (e : Thrown) :
    Kept s signedId (n.rethrow signedId e) := by
  rw [Node.rethrow]
  split_ifs
  · exact h.abortBlock hsigned
  · exact h

end

def Progress (block : BlockState) (done : List SignedTrx) (n : Node) : Prop :=
  ∃ a, n.pending = some a ∧ a.block.time = block.time ∧ a.block.transactions = done

lemma pushTransaction_progress {done : List SignedTrx} {x : Attempt}
    (h : Progress block done n) (hn : n.pushTransaction s signedId skip t x = (n', none)) :
    Progress block (done ++ [t]) n' := by
  obtain ⟨a, hp, htime, hdone⟩ := h
  rw [Node.pushTransaction, hp] at hn
  dsimp only at hn
  split at hn
  · obtain ⟨rfl, -⟩ := Prod.mk.inj hn
    exact ⟨_, rfl, htime, by rw [← hdone]⟩
  · cases (Prod.mk.inj hn).2

lemma Kept.applyTransactions (hr : s.replayHeadTime = none) (hid : IdsDetermineExpiration s.packing)
    (h : Kept s signedId n) (attempts : ℕ → Attempt) (i : ℕ)
    {done rest : List SignedTrx} (hprogress : Progress block done n) (hblock : done ++ rest = block.transactions)
    (hskip : skip = true → block.Unexpired) :
    Kept s signedId (n.applyTransactions s signedId skip attempts i rest).1 ∧
      ((n.applyTransactions s signedId skip attempts i rest).2 = none →
        Progress block block.transactions (n.applyTransactions s signedId skip attempts i rest).1) := by
  induction rest generalizing n i done with
  | nil =>
    refine ⟨h, fun _ => ?_⟩
    rw [← hblock, append_nil]
    exact hprogress
  | cons t rest ih =>
    have hexp : skip = true → ∀ a ∈ n.pending, a.block.time ≤ timePoint t.trx.expiration := by
      intro hs a ha
      obtain ⟨a', hp, htime, -⟩ := hprogress
      obtain rfl := Option.some.inj (hp.symm.trans ha)
      rw [htime]
      exact hskip hs t (hblock ▸ mem_append_right _ mem_cons_self)
    have hpush := h.pushTransaction hr hid (attempts i) hexp
    rw [Node.applyTransactions]
    split
    · rename_i m hm
      rw [hm] at hpush
      refine ih hpush (i + 1) (pushTransaction_progress hprogress hm) ?_
      rw [append_assoc]
      exact hblock
    · rename_i m e hm
      rw [hm] at hpush
      exact ⟨hpush, fun he => (by cases he)⟩

lemma Kept.acceptApplied (h : Kept s signedId n) (hp : n.pending = some a)
    (htime : a.block.time = block.time) (htransactions : a.block.transactions = block.transactions) :
    Kept s signedId (n.acceptApplied a block) := by
  have hblocks : n.blocks = a :: n.chain := by rw [Node.blocks, hp]; rfl
  have hunexpired : block.Unexpired := by
    rw [BlockState.Unexpired, ← htime, ← htransactions]
    exact h.unexpired a hp
  have hsession : (⟨{ block with validated := true }, a.before⟩ : Applied).session = a.session := by
    rw [Applied.session, Applied.session, htime, htransactions]
  refine ⟨?_, fun _ ha => (by cases ha), fun _ ha => (by cases ha), ?_, h.owed, ?_⟩
  · have hsound := h.sound
    rw [hblocks, map_cons, ← hsession] at hsound
    exact hsound
  · intro b hb hv
    obtain rfl | hb := mem_cons.mp hb
    · exact hunexpired
    · exact h.validated b hb hv
  · intro a' ha' t ht
    obtain rfl | ha' := mem_cons.mp ha'
    · exact h.apart a (hblocks ▸ mem_cons_self) t (htransactions ▸ ht)
    · exact h.apart a' (hblocks ▸ mem_cons_of_mem _ ha') t ht

lemma Kept.applyBlock (hr : s.replayHeadTime = none) (hid : IdsDetermineExpiration s.packing)
    (hsigned : SignedIdsDetermineIds s.packing signedId) (h : Kept s signedId n)
    {attempts : ℕ → Attempt} {light : Bool} {fault : Option Thrown} (hmem : block ∈ n.forkDb)
    (hlight : light = true → block.Unexpired)
    (hn : n.applyBlock s signedId block attempts light fault = .ok n') : Kept s signedId n' := by
  obtain ⟨m, hm, hn⟩ := bind_ok hn
  have hprogress : Progress block [] m := by
    iterate 2 obtain ⟨-, hm⟩ := eosAssert_ok hm
    cases hm
    exact ⟨_, rfl, rfl, rfl⟩
  have hskip : (block.validated || light) = true → block.Unexpired := by
    intro hs
    obtain hv | hl := (Bool.or_eq_true _ _).mp hs
    · exact h.validated block hmem hv
    · exact hlight hl
  obtain ⟨hkept, hdone⟩ := (h.startBlock hm).applyTransactions hr hid attempts 0 hprogress rfl hskip
  split at hn
  · rename_i m' e hm'
    rw [hm'] at hkept
    cases hn
    exact hkept.rethrow hsigned e
  · rename_i m' hm'
    rw [hm'] at hkept hdone
    obtain ⟨a, hp, htime, htransactions⟩ := hdone rfl
    rw [hp] at hn
    cases fault with
    | some e =>
      cases hn
      exact hkept.rethrow hsigned e
    | none =>
      cases hn
      exact hkept.acceptApplied hp htime htransactions

end

section

def Orderly (n : Node) : Op → Prop
  | .commitBlock fault => fault ≠ some true
  | .popBlock => ∀ a ∈ n.chain.head?, a.block.trxs = a.block.transactions
  | .applyBlock block _ light _ => light = true → block.Unexpired
  | _ => True

def OrderlyRun (s : Settings) (signedId : Signing) (n : Node) : List Op → Prop
  | [] => True
  | op :: ops => Orderly n op ∧ OrderlyRun s signedId (n.step s signedId op) ops

lemma Kept.commitBlock (hsigned : SignedIdsDetermineIds s.packing signedId) (h : Kept s signedId n) {fault : Option Bool}
    (hfault : fault ≠ some true) (hn : n.commitBlock signedId fault = .ok n') : Kept s signedId n' := by
  rw [Node.commitBlock] at hn
  split at hn
  · cases hn
  · rename_i a hp
    split at hn
    · cases hn
      exact h.acceptApplied hp rfl rfl
    · exact absurd rfl hfault
    · cases hn
      exact h.abortBlock hsigned

lemma Kept.popBlock (hsigned : SignedIdsDetermineIds s.packing signedId) (h : Kept s signedId n)
    (hfull : ∀ a ∈ n.chain.head?, a.block.trxs = a.block.transactions) (hn : n.popBlock signedId = .ok n') :
    Kept s signedId n' := by
  rw [Node.popBlock] at hn
  split at hn
  · rename_i a chain hp hchain
    cases hn
    have hblocks : n.blocks = a :: chain := by
      rw [Node.blocks, hp, hchain]
      rfl
    have hundo := h.undo hsigned hblocks (hfull a (by rw [hchain]; rfl))
    rw [← hp] at hundo
    exact hundo
  · cases hn
  · cases hn

section

variable (hr : s.replayHeadTime = none) (hid : IdsDetermineExpiration s.packing)
  (hsigned : SignedIdsDetermineIds s.packing signedId) (h : Kept s signedId n)

include hr hid hsigned h

lemma Kept.exec {op : Op} (ho : Orderly n op) (hn : n.exec s signedId op = .ok n') : Kept s signedId n' := by
  cases op with
  | startBlock wanted => exact h.startBlock hn
  | pushTransaction t x =>
    cases hn
    exact h.pushTransaction hr hid x (fun he => (by cases he))
  | commitBlock fault => exact h.commitBlock hsigned ho hn
  | abortBlock =>
    cases hn
    exact h.abortBlock hsigned
  | popBlock => exact h.popBlock hsigned ho hn
  | receiveBlock time transactions =>
    cases hn
    refine ⟨h.sound, h.full, h.unexpired, ?_, h.owed, h.apart⟩
    intro b hb hv
    obtain rfl | hb := mem_cons.mp hb
    · cases hv
    · exact h.validated b hb hv
  | applyBlock block attempts light fault =>
    obtain ⟨hmem, hn⟩ := eosAssert_ok hn
    exact h.applyBlock hr hid hsigned hmem ho hn
  | dropUnapplied t =>
    cases hn
    exact h.settle t
  | dropAllUnapplied =>
    cases hn
    exact ⟨h.sound, h.full, h.unexpired, h.validated, fun d hd => absurd hd (Finset.notMem_empty d), fun _ _ _ _ => rfl⟩

lemma Kept.run {ops : List Op} (ho : OrderlyRun s signedId n ops) : Kept s signedId (n.run s signedId ops) := by
  induction ops generalizing n with
  | nil => exact h
  | cons op ops ih =>
    refine ih ?_ ho.2
    rw [Node.step]
    split
    · rename_i n' hn
      exact h.exec hr hid hsigned ho.1 hn
    · exact h

end

lemma kept_of_started (s : Settings) (signedId : Signing) (base : ℕ) : Kept s signedId { base } :=
  ⟨trivial, fun _ ha => (by cases ha), fun _ ha => (by cases ha), fun _ hb => absurd hb not_mem_nil,
    fun d hd => absurd hd (Finset.notMem_empty d), fun _ _ _ _ => rfl⟩

theorem undone_transactions_are_kept (hr : s.replayHeadTime = none) (hid : IdsDetermineExpiration s.packing)
    (hsigned : SignedIdsDetermineIds s.packing signedId) (base : ℕ) (ops : List Op)
    (ho : OrderlyRun s signedId { base } ops) :
    (∀ d ∈ (Node.run s signedId { base } ops).owed, (Node.run s signedId { base } ops).unapplied.find? d ≠ none) ∧
    ∀ a ∈ (Node.run s signedId { base } ops).chain, ∀ t ∈ a.block.transactions,
      (Node.run s signedId { base } ops).unapplied.find? (signedId t) = none := by
  have h := (kept_of_started s signedId base).run hr hid hsigned ho
  exact ⟨h.owed, fun a ha t ht => h.apart a (mem_append_right _ ha) t ht⟩

def expiringTrx (expiration : ℕ) : SignedTrx := { trx := { expiration } }

def expirationId : Signing := fun t => t.trx.expiration

def producedThenPopped : List Op :=
  [.startBlock 500000, .pushTransaction (expiringTrx 10) {}, .pushTransaction (expiringTrx 11) {}, .commitBlock none,
   .receiveBlock 1000000 [expiringTrx 11], .popBlock,
   .applyBlock { time := 1000000, transactions := [expiringTrx 11] } (fun _ => {}) false none]

theorem producedThenPopped_are_kept :
    (Node.run expirationSettings expirationId { base := 0 } producedThenPopped).owed = {10} ∧
    (Node.run expirationSettings expirationId { base := 0 } producedThenPopped).unapplied.find? 10 ≠ none ∧
    (Node.run expirationSettings expirationId { base := 0 } producedThenPopped).unapplied.find? 11 = none := by
  have ho : OrderlyRun expirationSettings expirationId { base := 0 } producedThenPopped := by
    refine ⟨trivial, trivial, trivial, fun h => (by cases h), trivial, ?_, fun h => (by cases h), trivial⟩
    intro a ha
    cases ha
    rfl
  have howed : (Node.run expirationSettings expirationId { base := 0 } producedThenPopped).owed = {10} := by
    decide +kernel
  have hid : SignedIdsDetermineIds expirationSettings.packing expirationId := fun _ _ h => h
  obtain ⟨hkept, -⟩ := undone_transactions_are_kept rfl (fun _ _ h => h) hid 0 producedThenPopped ho
  exact ⟨howed, hkept 10 (howed ▸ Finset.mem_singleton_self 10), by decide +kernel⟩

def receivedThenPopped : List Op :=
  [.receiveBlock 500000 [expiringTrx 10],
   .applyBlock { time := 500000, transactions := [expiringTrx 10] } (fun _ => {}) false none,
   .receiveBlock 1000000 [], .receiveBlock 1500000 [], .popBlock,
   .applyBlock { time := 1000000 } (fun _ => {}) false none, .applyBlock { time := 1500000 } (fun _ => {}) false none]

theorem receivedThenPopped_is_lost :
    10 ∈ (Node.run expirationSettings expirationId { base := 0 } receivedThenPopped).owed ∧
    (Node.run expirationSettings expirationId { base := 0 } receivedThenPopped).unapplied.find? 10 = none ∧
    (Node.run expirationSettings expirationId { base := 0 } receivedThenPopped).chain.map (fun a => a.block.transactions) =
      [[], []] := by
  decide +kernel

end

end XosChain.Unapplied
