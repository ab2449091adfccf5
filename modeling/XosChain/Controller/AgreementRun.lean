import XosChain.Controller.AgreementSwitch

namespace XosChain.Controller

open Lib Header Fork ForkDatabase

inductive Op (δ τ : Type) where
  | startBlock (when : Slot) (confirmBlockCount : ℕ) (fault : Option Thrown)
  | pushTransaction (t : τ) (fault : Option Thrown)
  | finalizeBlock (id : BlockId) (fault : Option (Thrown × δ))
  | commitBlock (o : OnIrreversible) (f : Faults δ)
  | applyBlock (b : BlockState) (f : Faults δ)
  | abortBlock
  | popBlock
  | maybeSwitchForks (faults : List (Faults δ))
  | pushBlock (b : SignedBlockHeader) (trust : Bool) (o : OnIrreversible) (signal : Option Thrown) (faults : List (Faults δ))
  | pushConfirmation (conf : HeaderConfirmation) (signal : Option Thrown) (faults : List (Faults δ))

variable {δ τ : Type}

def Orderly (s : State (Store δ τ)) : Op δ τ → Prop
  | .pushTransaction _ _ | .finalizeBlock _ _ => ∀ p, s.store.pending = some p → p.stage = .started
  | .commitBlock _ f => ∀ p, s.store.pending = some p → p.stage = .finalized ∧ TakesHead s f p
  | .popBlock | .maybeSwitchForks _ => s.store.pending = none
  | _ => True

namespace Ledger

def exec (L : Ledger δ τ) (c : Crypto) : Op δ τ → Step (Store δ τ) Unit
  | .startBlock when confirmBlockCount fault => startBlock c L.execution when confirmBlockCount fault
  | .pushTransaction t fault => discard (pushTransaction L.execution t fault)
  | .finalizeBlock id fault => finalizeBlock L.execution id fault
  | .commitBlock o f => commitBlock true o f
  | .applyBlock b f => do
    setFaults [f]
    applyBlockState c L.execution L.toNames b
    setHead b
  | .abortBlock => abortBlock
  | .popBlock => popBlock undoStore
  | .maybeSwitchForks faults => switchForks c L.execution L.toNames faults
  | .pushBlock b trust o signal faults => pushBlock c L.execution L.toNames b trust o signal faults
  | .pushConfirmation conf signal faults => pushConfirmation c L.execution L.toNames conf signal faults

def Admissible (L : Ledger δ τ) (c : Crypto) (s : State (Store δ τ)) : Op δ τ → Prop
  | .finalizeBlock id _ => ∀ p, s.store.pending = some p → L.Identifies id p
  | .applyBlock b _ => L.Named b
  | .pushBlock b trust _ _ _ => ∀ prior ∈ s.forkDb.index.rows, ∀ r, prior.next c b trust = .ok r →
    L.prev r.id = r.header.previous ∧ L.num r.id = L.num r.header.previous + 1
  | _ => True

inductive Run (L : Ledger δ τ) (c : Crypto) (keeps : State (Store δ τ) → Op δ τ → Prop) (start : State (Store δ τ)) :
    State (Store δ τ) → Prop
  | start : Run L c keeps start start
  | ok {s s' : State (Store δ τ)} {op : Op δ τ} : Run L c keeps start s → L.Admissible c s op → keeps s op →
    L.exec c op s = .ok () s' → Run L c keeps start s'
  | error {s s' : State (Store δ τ)} {op : Op δ τ} {e : Thrown} : Run L c keeps start s → L.Admissible c s op →
    keeps s op → e.code ≠ .undefinedBehavior → L.exec c op s = .error e s' → Run L c keeps start s'

def initial (L : Ledger δ τ) (b : BlockState) : State (Store δ τ) :=
  ⟨ofRoot b, b, { db := ⟨b.blockNum, L.rootContents, []⟩ }⟩

end Ledger

abbrev State.signalling (s : State (Store δ τ)) (o : OnIrreversible) (db : ForkDatabase) : State (Store δ τ) :=
  ⟨db, s.head, { s.store with db := commitSignalled o (db.signalled.drop s.forkDb.signalled.length) s.store.db }⟩

section

variable {L : Ledger δ τ} {s s' : State (Store δ τ)} {c : Crypto}

variable {o : OnIrreversible}

lemma Ledger.Good.fetched (h : L.Good s) (hp : s.store.pending = none) {n : BlockState} (hn : L.Named n)
    {prior : BlockState} (hprior : prior ∈ s.forkDb.index.rows) (hnum : n.blockNum = prior.blockNum + 1)
    {db : ForkDatabase} (hg : Grown s.forkDb n db) :
    L.Idle (s.signalling o db) := by
  have hdeep : s.store.db.revision ≤ s.store.db.undos.length + n.blockNum := by
    have := h.rows.deep prior hprior
    omega
  refine ⟨⟨h.rows.grown hn hdeep hg, h.head, ?_⟩, hp⟩
  simp only [Ledger.Agree, hp]
  exact (h.at hp).trim (commitSignalled_trimmed o _ _)

lemma requireNoPending_spec (what : String) :
    Triple (· = s) (requireNoPending what) (fun _ s' => s' = s ∧ s.store.pending = none) (fun _ s' => s' = s) := by
  refine .getBind_eq ?_
  split_ifs with hp
  · exact .pure_eq ⟨rfl, Option.isNone_iff_eq_none.mp hp⟩
  · exact .throw _ fun _ h => h

lemma raise_idle (h : L.Idle s) (fault : Option Thrown) : Triple (· = s) (raise fault) (fun _ => (· = s)) L.Failed := by
  refine (raise_spec s fault).weaken ?_
  rintro e _ rfl
  exact h.failed e

def Ledger.GoodUnless (L : Ledger δ τ) (e : Thrown) (s : State (Store δ τ)) : Prop := e.code ≠ .undefinedBehavior → L.Good s

lemma Ledger.Failed.goodUnless {e : Thrown} (h : L.Failed e s) : L.GoodUnless e s := fun hne => (h hne).1

section

variable (h : L.Good s)

include h

lemma Ledger.Good.unless (e : Thrown) (s' : State (Store δ τ)) (hs : s' = s) : L.GoodUnless e s' :=
  fun _ => hs ▸ h

lemma pushBlock_good {b : SignedBlockHeader} {trust : Bool} {signal : Option Thrown} {faults : List (Faults δ)}
    (ha : L.Admissible c s (.pushBlock b trust o signal faults)) :
    Triple (· = s) (pushBlock c L.execution L.toNames b trust o signal faults) (fun _ => L.Good) L.GoodUnless := by
  refine .seq ((requireNoPending_spec _).weaken h.unless) ?_
  rintro _ s0 ⟨hs0, hp⟩
  rw [hs0]
  have hsame : ∀ db, db = s.forkDb → L.Idle (s.signalling o db) := by
    intro db hdb
    rw [hdb, State.signalling, List.drop_length]
    exact ⟨h, hp⟩
  have hnew : ∀ db, (∃ prior ∈ s.forkDb.index.rows, ∃ r, prior.next c b trust = .ok r ∧
      Grown s.forkDb { r with } db) → L.Idle (s.signalling o db) := by
    rintro db ⟨prior, hprior, r, hr, hg⟩
    obtain ⟨_, he, _⟩ := BlockHeaderState.next_extends hr
    obtain ⟨hprev, hnum⟩ := ha prior hprior r hr
    have hn : L.Named { r with } := by
      refine ⟨hprev, ?_, hnum⟩
      rw [hnum, he.blockNum, (h.rows.named prior hprior).blockNum, he.previous]
    exact h.fetched hp hn hprior he.blockNum hg
  have hadd : Triple (· = s.forkDb) (addBlock c o.handler b trust)
      (fun _ db => L.Idle (s.signalling o db))
      (fun e db => e.code ≠ .undefinedBehavior → L.Idle (s.signalling o db)) :=
    (addBlock_grown o.appliesNone s.forkDb b trust).conseq (fun _ h => h) (fun _ db h => hnew db h)
      fun _ db h hne => (h hne).elim (hsame db) (hnew db)
  refine .seq ((withIrreversible_spec hadd).weaken ?_) ?_
  · rintro e s' hs' hne
    obtain ⟨db, hi, rfl⟩ := hs' hne
    exact hi.1
  · rintro _ _ ⟨db, hi, rfl⟩
    refine .bind ((raise_idle hi signal).weaken fun _ _ h => h.goodUnless) fun _ => ?_
    exact (switchForks_idle hi faults).conseq (fun _ h => h) (fun _ _ h => h.1) fun _ _ h => h.goodUnless

lemma pushConfirmation_good (conf : HeaderConfirmation) (signal : Option Thrown) (faults : List (Faults δ)) :
    Triple (· = s) (pushConfirmation c L.execution L.toNames conf signal faults) (fun _ => L.Good) L.GoodUnless := by
  refine .seq ((requireNoPending_spec _).weaken h.unless) ?_
  rintro _ s0 ⟨hs0, hp⟩
  rw [hs0]
  have hidle : L.Idle s := ⟨h, hp⟩
  refine .seq ((onForkDb_spec (addConfirmation_spec s.forkDb c conf)).weaken ?_) ?_
  · rintro e _ ⟨db, hdb, rfl⟩ _
    rw [hdb]
    exact h
  · rintro _ _ ⟨db, ⟨hs, _⟩, rfl⟩
    refine .bind ((raise_idle (hidle.reshape hs) signal).weaken fun _ _ h => h.goodUnless) fun _ => ?_
    exact (switchForks_idle (hidle.reshape hs) faults).conseq (fun _ h => h) (fun _ _ h => h.1) fun _ _ h => h.goodUnless

lemma pushTransaction_good (t : τ) (fault : Option Thrown) (hk : ∀ p, s.store.pending = some p → p.stage = .started) :
    Triple (· = s) (pushTransaction L.execution t fault) (fun _ => L.Good) L.GoodUnless := by
  cases hp : s.store.pending with
  | none =>
    refine .getBind_eq ?_
    rw [hp]
    exact .throw _ fun _ _ hne => absurd rfl hne
  | some p =>
    exact (pushTransaction_spec h hp (hk p hp) t fault).conseq (fun _ h => h) (fun _ _ h => h.1) h.unless

lemma finalizeBlock_good {id : BlockId} (fault : Option (Thrown × δ))
    (ha : ∀ p, s.store.pending = some p → L.Identifies id p) (hk : ∀ p, s.store.pending = some p → p.stage = .started) :
    Triple (· = s) (finalizeBlock L.execution id fault) (fun _ => L.Good) L.GoodUnless := by
  cases hp : s.store.pending with
  | none =>
    refine .getBind_eq ?_
    rw [hp]
    exact .throw _ (h.unless _)
  | some p =>
    exact (finalizeBlock_spec h hp (hk p hp) fault (ha p hp)).weaken fun _ _ h _ => h.1

lemma commitBlock_good {f : Faults δ} (hk : Orderly s (.commitBlock o f)) :
    Triple (· = s) (commitBlock true o f) (fun _ => L.Good) L.GoodUnless := by
  cases hp : s.store.pending with
  | none =>
    refine .getBind_eq ?_
    rw [hp]
    exact .throw _ fun _ _ hne => absurd rfl hne
  | some p =>
    obtain ⟨hs, htakes⟩ := hk p hp
    exact (commitBlock_spec h hp hs htakes).conseq (fun _ h => h) (fun _ _ h => h.1) fun _ _ h hne => (h hne).1

lemma exec_good {op : Op δ τ} (ha : L.Admissible c s op) (hk : Orderly s op) :
    Triple (· = s) (L.exec c op) (fun _ => L.Good) L.GoodUnless := by
  cases op with
  | startBlock when confirmBlockCount fault =>
    exact (startBlock_spec h when confirmBlockCount fault).conseq (fun _ h => h) (fun _ _ h => h.1) h.unless
  | pushTransaction t fault =>
    exact .bind (pushTransaction_good h t fault hk) fun _ => Triple.pure _ fun _ h => h
  | finalizeBlock id fault => exact finalizeBlock_good h fault ha hk
  | commitBlock o f => exact commitBlock_good h hk
  | applyBlock b f =>
    refine .modifyBind (.seq ((applyBlockState_spec (h.withFaults [f]) ha).weaken fun _ _ h _ => h.1) ?_)
    rintro _ s' hs'
    refine .modify_eq ⟨hs'.rows, ha, ?_⟩
    simp only [Ledger.Agree, hs'.pending]
    exact hs'.position
  | abortBlock => exact (abortBlock_spec h).conseq (fun _ h => h) (fun _ _ h => h.1) fun _ _ h => h.elim
  | popBlock =>
    exact (popBlock_idle ⟨h, hk⟩).conseq (fun _ h => h) (fun _ _ h => h.1) fun _ _ h => h.goodUnless
  | maybeSwitchForks faults =>
    exact (switchForks_idle ⟨h, hk⟩ faults).conseq (fun _ h => h) (fun _ _ h => h.1) fun _ _ h => h.goodUnless
  | pushBlock b trust o signal faults => exact pushBlock_good h ha
  | pushConfirmation conf signal faults => exact pushConfirmation_good h conf signal faults

end

lemma Ledger.initial_good {b : BlockState} (hroot : L.root = b.id) (hb : L.Named b) : L.Good (L.initial b) := by
  have hrows : ∀ t ∈ (L.initial b).forkDb.index.rows, t = b := fun t ht => List.mem_singleton.mp ht
  refine ⟨⟨fun t ht => ?_, fun t ht => ?_⟩, hb, ⟨hroot ▸ .root, trivial, hb.blockNum⟩⟩
  · rw [hrows t ht]
    exact hb
  · rw [hrows t ht]
    exact Nat.le_add_left _ _

lemma Ledger.Run.good {b : BlockState} (hroot : L.root = b.id) (hb : L.Named b)
    (h : L.Run c Orderly (L.initial b) s) : L.Good s := by
  induction h with
  | start => exact L.initial_good hroot hb
  | ok _ ha hk hx ih => exact (exec_good ih ha hk).ok rfl hx
  | error _ ha hk hne hx ih => exact (exec_good ih ha hk).error rfl hx hne

end

section

def after {σ : Type} (x : Step σ Unit) (s : State σ) : State σ :=
  match x s with
  | .ok _ s' => s'
  | .error _ s' => s'

def thrown {σ : Type} (x : Step σ Unit) (s : State σ) : Option Thrown :=
  match x s with
  | .ok _ _ => none
  | .error e _ => some e

lemma ok_of_thrown {σ : Type} {x : Step σ Unit} {s : State σ} (h : thrown x s = none) : x s = .ok () (after x s) := by
  rw [thrown] at h
  rw [after]
  cases hx : x s with
  | ok a s' => rfl
  | error e s' =>
    rw [hx] at h
    cases h

def logExecution : Execution (List ℕ) ℕ := ⟨fun _ d => d, fun _ _ => none, fun t d => .ok (t :: d), fun _ d => .ok d⟩

def firstHeader : SignedBlockHeader :=
  match startState slotCrypto logExecution testRoot.toBlockHeaderState 1 0 [] with
  | .ok p => p.header
  | .error _ => {}

def logLedger : Ledger (List ℕ) ℕ where
  body i := if i = 2 then ⟨firstHeader, [7]⟩ else ⟨{}, []⟩
  num i := if i = 2 then 2 else if i = 0 then 0 else 1
  execution := logExecution
  root := testRoot.id
  rootContents := []

def step (op : Op (List ℕ) ℕ) (s : State (Store (List ℕ) ℕ)) : State (Store (List ℕ) ℕ) :=
  after (logLedger.exec slotCrypto op) s

abbrev LogRun (keeps : State (Store (List ℕ) ℕ) → Op (List ℕ) ℕ → Prop) : State (Store (List ℕ) ℕ) → Prop :=
  logLedger.Run slotCrypto keeps (logLedger.initial testRoot)

variable {keeps : State (Store (List ℕ) ℕ) → Op (List ℕ) ℕ → Prop} {s : State (Store (List ℕ) ℕ)}

section

variable (op : Op (List ℕ) ℕ) (h : LogRun keeps s) (ha : logLedger.Admissible slotCrypto s op)
  (hk : keeps s op)

include op h ha hk

lemma LogRun.returns (ht : thrown (logLedger.exec slotCrypto op) s = none) : LogRun keeps (step op s) :=
  .ok h ha hk (ok_of_thrown ht)

end

instance (p : Pending ℕ) (id : BlockId) : Decidable (logLedger.Identifies id p) :=
  inferInstanceAs (Decidable (_ = _ ∧ _ = _))

end

end XosChain.Controller
