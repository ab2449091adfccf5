import XosChain.Controller.Agreement

namespace XosChain.Controller

open Lib Header Fork List ForkDatabase Sessions

variable {δ τ : Type} {L : Ledger δ τ}

structure Trimmed (db db' : Sessions δ) : Prop where
  revision : db'.revision = db.revision
  contents : db'.contents = db.contents
  undos : ∃ k, db'.undos = db.undos.take k

def signalledSince (s s' : State (Store δ τ)) : List Signal := s'.forkDb.signalled.drop s.forkDb.signalled.length

section

variable {db db' db'' : Sessions δ} {i : BlockId} {idx : Index} {o : OnIrreversible} {signals : List Signal}

lemma Trimmed.refl (db : Sessions δ) : Trimmed db db := ⟨rfl, rfl, db.undos.length, (take_length).symm⟩

lemma Trimmed.trans (h : Trimmed db db') (h' : Trimmed db' db'') : Trimmed db db'' := by
  obtain ⟨k, hk⟩ := h.undos
  obtain ⟨k', hk'⟩ := h'.undos
  exact ⟨h'.revision.trans h.revision, h'.contents.trans h.contents, min k' k, by rw [hk', hk, take_take]⟩

lemma Trimmed.backed {undos : List δ} (h : Trimmed db db') (hb : L.Backed i undos) (he : db.undos = undos) :
    L.Backed i db'.undos := by
  obtain ⟨k, hk⟩ := h.undos
  rw [hk, he]
  exact hb.take k

lemma commitSignalled_trimmed (o : OnIrreversible) (signals : List Signal) (db : Sessions δ) :
    Trimmed db (commitSignalled o signals db) := by
  induction signals generalizing db with
  | nil => exact .refl db
  | cons sig signals ih =>
    rw [commitSignalled, foldl_cons]
    split_ifs
    · have hstep : Trimmed db (db.commit sig.block.blockNum) := ⟨rfl, rfl, _, rfl⟩
      exact hstep.trans (ih _)
    · exact ih db

lemma commitSignalled_undos (hs : ∀ sig ∈ signals, sig.block.blockNum < db.revision) (hu : db.undos ≠ []) :
    (commitSignalled o signals db).undos ≠ [] := by
  induction signals generalizing db with
  | nil => exact hu
  | cons sig signals ih =>
    rw [commitSignalled, foldl_cons]
    have hs' : ∀ sig ∈ signals, sig.block.blockNum < db.revision := fun g hg => hs g (mem_cons_of_mem _ hg)
    split_ifs
    · refine ih hs' ?_
      have hlt := hs sig mem_cons_self
      intro hnil
      rcases take_eq_nil_iff.mp hnil with h | h
      · omega
      · exact hu h
    · exact ih hs' hu

lemma Sessions.undo_trimmed (h : Trimmed db db') (hu : db'.undos ≠ []) : Trimmed db.undo db'.undo := by
  obtain ⟨k, hk⟩ := h.undos
  obtain ⟨d, undos, he⟩ : ∃ d undos, db.undos = d :: undos := by
    refine exists_cons_of_ne_nil fun hnil => hu ?_
    rw [hk, hnil, take_nil]
  cases k with
  | zero => exact absurd hk hu
  | succ k =>
    rw [he, take_succ_cons] at hk
    simp only [undo, he, hk, h.revision]
    exact ⟨rfl, rfl, k, rfl⟩

lemma Ledger.At.trim (ha : L.At i db) (h : Trimmed db db') : L.At i db' :=
  ⟨h.contents ▸ ha.contents, h.backed ha.backed rfl, h.revision.trans ha.revision⟩

lemma Ledger.Rows.signalled {s db' : ForkDatabase} (h : L.Rows db'.index db)
    (hsig : db'.signalled = s.signalled ∨ ∃ sig, db'.signalled = s.signalled ++ [sig] ∧
      ∀ t ∈ db'.index.rows, sig.block.blockNum ≤ t.blockNum) :
    L.Rows db'.index (commitSignalled o (db'.signalled.drop s.signalled.length) db) := by
  rcases hsig with he | ⟨sig, he, hlow⟩
  · rw [he, drop_length]
    exact h
  · rw [he, drop_left]
    simp only [commitSignalled, foldl_cons, foldl_nil]
    split_ifs
    · exact h.commit hlow
    · exact h

end

section

variable {s s' : State (Store δ τ)} {p : Pending τ} {c : Crypto} {o : OnIrreversible} {f : Faults δ} {n : BlockState}

lemma OnIrreversible.appliesNone (o : OnIrreversible) : AppliesNone o.handler := by
  intro s b h
  rw [OnIrreversible.handler] at h
  cases ho : o s with
  | none =>
    rw [ho] at h
    cases h
  | some r =>
    rw [ho] at h
    cases h

lemma Ledger.Rows.grown {db : ForkDatabase} {sessions : Sessions δ} (h : L.Rows s.forkDb.index sessions) (hn : L.Named n)
    (hdeep : sessions.revision ≤ sessions.undos.length + n.blockNum) (hg : Grown s.forkDb n db) :
    L.Rows db.index (commitSignalled o (db.signalled.drop s.forkDb.signalled.length) sessions) := by
  refine Ledger.Rows.signalled ⟨fun t ht => ?_, fun t ht => ?_⟩ hg.lowest
  · rcases hg.1 t ht with ht | rfl
    · exact h.named t ht
    · exact hn
  · rcases hg.1 t ht with ht | rfl
    · exact h.deep t ht
    · exact hdeep

structure Committing (L : Ledger δ τ) (o : OnIrreversible) (s : State (Store δ τ)) (p : Pending τ) (s' : State (Store δ τ)) :
    Prop where
  pending : s'.store.pending = some p
  rows : L.Rows s'.forkDb.index s'.store.db
  db : s'.store.db = commitSignalled o (signalledSince s s') s.store.db
  head : L.Named s'.head

lemma withIrreversible_spec {action : Fork.Action Unit} {Q R : ForkDatabase → Prop}
    (h : Triple (· = s.forkDb) action (fun _ => Q) (fun e db => e.code ≠ .undefinedBehavior → R db)) :
    Triple (· = s) (withIrreversible o action)
      (fun _ s' => ∃ db, Q db ∧ s' = ⟨db, s.head, { s.store with
        db := commitSignalled o (db.signalled.drop s.forkDb.signalled.length) s.store.db }⟩)
      (fun e s' => e.code ≠ .undefinedBehavior → ∃ db, R db ∧ s' = ⟨db, s.head, { s.store with
        db := commitSignalled o (db.signalled.drop s.forkDb.signalled.length) s.store.db }⟩) := by
  intro s' hs'
  rw [hs']
  have hx := h s.forkDb rfl
  simp only [withIrreversible]
  cases ha : action s.forkDb with
  | ok a db =>
    rw [ha] at hx
    exact ⟨db, hx, rfl⟩
  | error e db =>
    rw [ha] at hx
    exact fun hne => ⟨db, hx hne, rfl⟩

lemma Committing.take (hc : Committing L o s p s') (hl : Leading n s'.forkDb) :
    Triple (· = s') (takeForkHead n.id) (fun _ s'' => Committing L o s p s'' ∧ s''.head.id = n.id) (fun _ _ => False) := by
  have hget : s'.forkDb.head.bind s'.forkDb.getBlock = some n := by
    rw [hl.head]
    exact Index.find?_eq_some.mpr ⟨hl.mem, rfl⟩
  refine .getBind_eq ?_
  rw [hget]
  refine .modifyBind ?_
  rw [if_pos rfl]
  exact .pure_eq ⟨⟨hc.pending, hc.rows, hc.db, hc.rows.named n hl.mem⟩, rfl⟩

def KeptBack (s : State (Store δ τ)) (p : Pending τ) (s' : State (Store δ τ)) : Prop :=
  s'.head.id = s.head.id ∧ ∀ sig ∈ signalledSince s s', sig.block.blockNum < p.block.blockNum

structure TakesHead (s : State (Store δ τ)) (f : Faults δ) (p : Pending τ) : Prop where
  linked : ∃ t ∈ s.forkDb.index.rows, t.id = s.head.id
  leads : Leads s.forkDb { p.block with validated := true }
  reversible : f.reversible = none
  acceptedBlock : f.acceptedBlock = none

lemma keptBack_of_grown {db : ForkDatabase} {store : Store δ τ} {t : BlockState} (ht : t ∈ s.forkDb.index.rows)
    (hlt : t.blockNum < p.block.blockNum) (hg : Grown s.forkDb n db) : KeptBack s p ⟨db, s.head, store⟩ := by
  refine ⟨rfl, fun sig hsig => ?_⟩
  rw [signalledSince] at hsig
  rcases hg.2 with he | ⟨sig', he, hle⟩
  · rw [he, drop_length] at hsig
    cases hsig
  · rw [he, drop_left] at hsig
    rw [mem_singleton.mp hsig]
    exact (hle t (.inl ht)).trans_lt hlt

lemma raise_none : (raise none : Step (Store δ τ) Unit) = pure () := rfl

lemma commitPending_spec (h : L.Good s) (hp : s.store.pending = some p) (hs : p.stage = .finalized)
    (hk : TakesHead s f p) :
    Triple (· = s) (commitPending true o f p) (fun _ s' => Committing L o s p s' ∧ s'.head.id = p.block.id)
      (fun e s' => e.code ≠ .undefinedBehavior → Committing L o s p s' ∧ KeptBack s p s') := by
  have ho := h.open hp
  have hprogress := ho.progress
  rw [Ledger.Progress, hs] at hprogress
  have hn : L.Named { p.block with validated := true } := ⟨hprogress.1.prev, hprogress.1.blockNum, hprogress.1.num⟩
  have hdeep : s.store.db.revision ≤ s.store.db.undos.length + p.block.blockNum := by
    have := ho.revision
    have := ho.blockNum
    have := h.head.blockNum
    omega
  obtain ⟨t, ht, hid⟩ := hk.linked
  have hlt : t.blockNum < p.block.blockNum := by
    have := ho.blockNum
    have := h.head.blockNum
    have := (h.rows.named t ht).blockNum
    rw [hid] at this
    omega
  have hnamed : ∀ u, u ∈ s.forkDb.index.rows ∨ u = { p.block with validated := true } → L.Named u :=
    fun u hu => hu.elim (h.rows.named u) fun he => he ▸ hn
  have hadd : Triple (· = s.forkDb) (add o.handler { p.block with validated := true })
      (fun _ db => Grown s.forkDb { p.block with validated := true } db ∧ Leading { p.block with validated := true } db)
      (fun e db => e.code ≠ .undefinedBehavior → Grown s.forkDb { p.block with validated := true } db) :=
    (add_grown o.appliesNone s.forkDb _).and_ok (add_leading o.appliesNone hk.leads ht hlt
      (fun u hu => (hnamed u hu).blockNum) fun u hu => (hnamed u hu).num)
  have hc : ∀ db, Grown s.forkDb { p.block with validated := true } db → Committing L o s p ⟨db, s.head,
      { s.store with db := commitSignalled o (db.signalled.drop s.forkDb.signalled.length) s.store.db }⟩ :=
    fun db hg => ⟨hp, h.rows.grown hn hdeep hg, rfl, h.head⟩
  rw [commitPending, hk.reversible, hk.acceptedBlock, raise_none]
  refine .bind (Q := fun _ s' => Committing L o s p s' ∧ s'.head.id = p.block.id) ?_ fun _ => .pure _ fun _ h => h
  rw [commitToForkDb, if_pos rfl]
  refine .seq ((withIrreversible_spec hadd).weaken ?_) ?_
  · intro _ s' hs' hne
    obtain ⟨db, hg, rfl⟩ := hs' hne
    exact ⟨hc db hg, keptBack_of_grown ht hlt hg⟩
  · rintro _ _ ⟨db, ⟨hg, hl⟩, rfl⟩
    refine .bind ((raise_spec _ _).weaken ?_) fun _ => ((hc db hg).take hl).weaken fun _ _ => False.elim
    rintro _ _ rfl _
    exact ⟨hc db hg, keptBack_of_grown ht hlt hg⟩

lemma Committing.abort (h : L.Good s) (hp : s.store.pending = some p) (hc : Committing L o s p s') (hk : KeptBack s p s') :
    L.Good { s' with store := { s'.store with db := s'.store.db.undo, pending := none } } := by
  have ho := h.open hp
  have hrev : s.store.db.revision = p.block.blockNum := by
    rw [ho.revision, ho.blockNum, h.head.blockNum]
  have hu : s'.store.db.undos ≠ [] := by
    rw [hc.db]
    exact commitSignalled_undos (hrev ▸ hk.2) ho.session
  have htrim := undo_trimmed (hc.db ▸ commitSignalled_trimmed o _ _) hu
  refine ⟨hc.rows.undo, hc.head, ?_⟩
  change L.At s'.head.id s'.store.db.undo
  rw [hk.1]
  exact ho.below.trim htrim

lemma Ledger.Open.committed {head : BlockState} {db : Sessions δ} (ho : L.Open head p db) (hs : p.stage = .finalized) :
    L.At p.block.id db := by
  have hprogress := ho.progress
  rw [Ledger.Progress, hs] at hprogress
  obtain ⟨hn, happly⟩ := hprogress
  have hprev : L.prev p.block.id = head.id := hn.prev.trans ho.prev
  refine ⟨.block (hprev ▸ ho.below.contents) happly, ?_, ?_⟩
  · obtain ⟨d, undos, he⟩ := exists_cons_of_ne_nil ho.session
    have hbelow := ho.below
    rw [undo, he] at hbelow
    rw [he]
    exact ⟨hprev ▸ hbelow.contents, hprev ▸ hbelow.backed⟩
  · rw [ho.revision, hn.num, ho.prev]

lemma Committing.push (h : L.Good s) (hp : s.store.pending = some p) (hs : p.stage = .finalized)
    (hc : Committing L o s p s') (hid : s'.head.id = p.block.id) :
    L.Good { s' with store := { s'.store with pending := none } } := by
  have htrim : Trimmed s.store.db s'.store.db := hc.db ▸ commitSignalled_trimmed o _ _
  refine ⟨hc.rows, hc.head, ?_⟩
  change L.At s'.head.id s'.store.db
  rw [hid]
  exact ((h.open hp).committed hs).trim htrim

lemma commitBlock_spec (h : L.Good s) (hp : s.store.pending = some p) (hs : p.stage = .finalized) (hk : TakesHead s f p) :
    Triple (· = s) (commitBlock true o f) (fun _ s' => L.Good s' ∧ s'.store.pending = none)
      (fun e s' => e.code ≠ .undefinedBehavior → L.Good s' ∧ s'.store.pending = none) := by
  refine .getBind_eq ?_
  rw [hp]
  refine .seq (.tryCatch (commitPending_spec h hp hs hk) ?_) ?_
  · intro e
    refine .bind (Q := fun _ s'' => e.code ≠ .undefinedBehavior → L.Good s'' ∧ s''.store.pending = none) ?_
      fun _ => Triple.throw e fun _ h => h
    refine .modify ?_
    intro s' hs' hne
    obtain ⟨hc, hback⟩ := hs' hne
    simp only [hc.pending]
    exact ⟨hc.abort h hp hback, trivial⟩
  · rintro _ s' ⟨hc, hid⟩
    exact .modify_eq ⟨hc.push h hp hs hid, rfl⟩

end

end XosChain.Controller
