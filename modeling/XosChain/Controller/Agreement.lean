import XosChain.Controller.Production
import XosChain.Fork.Frame

namespace XosChain.Controller

open Lib Header Fork List

structure Ledger (δ τ : Type) extends Names τ where
  execution : Execution δ τ
  root : BlockId
  rootContents : δ

variable {δ τ : Type} {L : Ledger δ τ}

namespace Ledger

def prev (L : Ledger δ τ) (i : BlockId) : BlockId := (L.body i).header.previous

def apply (L : Ledger δ τ) (i : BlockId) (d : δ) : Result δ := L.execution.apply L.toNames i d

inductive StateOf (L : Ledger δ τ) : BlockId → δ → Prop
  | root : StateOf L L.root L.rootContents
  | block {i : BlockId} {d d' : δ} : StateOf L (L.prev i) d → L.apply i d = .ok d' → StateOf L i d'

def Backed (L : Ledger δ τ) : BlockId → List δ → Prop
  | _, [] => True
  | i, d :: undos => L.StateOf (L.prev i) d ∧ Backed L (L.prev i) undos

structure At (L : Ledger δ τ) (i : BlockId) (db : Sessions δ) : Prop where
  contents : L.StateOf i db.contents
  backed : L.Backed i db.undos
  revision : db.revision = L.num i

structure Named (L : Ledger δ τ) (s : BlockState) : Prop where
  prev : L.prev s.id = s.prev
  blockNum : s.blockNum = L.num s.id
  num : L.num s.id = L.num s.prev + 1

structure Rows (L : Ledger δ τ) (idx : Index) (db : Sessions δ) : Prop where
  named : ∀ t ∈ idx.rows, L.Named t
  deep : ∀ t ∈ idx.rows, db.revision ≤ db.undos.length + t.blockNum

def Progress (L : Ledger δ τ) (p : Pending τ) (d d' : δ) : Prop :=
  match p.stage with
  | .started => L.execution.run p.block.header p.transactions d = .ok d'
  | .finalized => L.Named p.block ∧ L.apply p.block.id d = .ok d'
  | .failed => True

structure Open (L : Ledger δ τ) (head : BlockState) (p : Pending τ) (db : Sessions δ) : Prop where
  session : db.undos ≠ []
  below : L.At head.id db.undo
  revision : db.revision = L.num head.id + 1
  prev : p.block.prev = head.id
  blockNum : p.block.blockNum = head.blockNum + 1
  progress : L.Progress p db.undo.contents db.contents

def Agree (L : Ledger δ τ) (s : State (Store δ τ)) : Prop :=
  match s.store.pending with
  | none => L.At s.head.id s.store.db
  | some p => L.Open s.head p s.store.db

structure Good (L : Ledger δ τ) (s : State (Store δ τ)) : Prop where
  rows : L.Rows s.forkDb.index s.store.db
  head : L.Named s.head
  agree : L.Agree s

end Ledger

section

variable {db : Sessions δ} {i : BlockId} {undos : List δ} {idx idx' : Index} {d : δ}

lemma Sessions.undo_eq (h : db.undos ≠ []) (d : δ) : Sessions.undo { db with contents := d } = db.undo := by
  obtain ⟨e, undos, he⟩ := exists_cons_of_ne_nil h
  rw [Sessions.undo, Sessions.undo, he]

lemma Sessions.undo_revision (h : db.undos ≠ []) : db.undo.revision = db.revision - 1 := by
  obtain ⟨e, undos, he⟩ := exists_cons_of_ne_nil h
  rw [Sessions.undo, he]

lemma Sessions.undo_length (h : db.undos ≠ []) : db.undo.undos.length + 1 = db.undos.length := by
  obtain ⟨e, undos, he⟩ := exists_cons_of_ne_nil h
  rw [Sessions.undo, he]
  rfl

lemma Ledger.Backed.take (h : L.Backed i undos) (k : ℕ) : L.Backed i (undos.take k) := by
  induction undos generalizing i k with
  | nil => rw [take_nil]; trivial
  | cons d undos ih =>
    cases k with
    | zero => trivial
    | succ k => exact ⟨h.1, ih h.2 k⟩

section

variable (h : L.Rows idx db)

include h

lemma Ledger.Rows.undo : L.Rows idx db.undo := by
  refine ⟨h.named, fun t ht => ?_⟩
  have hd := h.deep t ht
  by_cases he : db.undos = []
  · rw [Sessions.undo, he]
    exact hd
  · have := Sessions.undo_length he
    rw [Sessions.undo_revision he]
    omega

lemma Ledger.Rows.push (d : δ) : L.Rows idx (db.push d) := by
  refine ⟨h.named, fun t ht => ?_⟩
  have hd := h.deep t ht
  simp only [Sessions.push, length_cons]
  omega

lemma Ledger.Rows.setContents (d : δ) : L.Rows idx { db with contents := d } := ⟨h.named, h.deep⟩

lemma Ledger.Rows.commit {r : ℕ} (hr : ∀ t ∈ idx.rows, r ≤ t.blockNum) : L.Rows idx (db.commit r) := by
  refine ⟨h.named, fun t ht => ?_⟩
  have hd := h.deep t ht
  have hle := hr t ht
  simp only [Sessions.commit, length_take]
  omega

lemma Ledger.Rows.sub (hs : ∀ t ∈ idx'.rows, t ∈ idx.rows) : L.Rows idx' db :=
  ⟨fun t ht => h.named t (hs t ht), fun t ht => h.deep t (hs t ht)⟩

lemma Ledger.Rows.sameShape (hs : Index.SameShape idx idx') : L.Rows idx' db := by
  have hback : ∀ t ∈ idx'.rows, L.Named t ∧ db.revision ≤ db.undos.length + t.blockNum := by
    intro t ht
    obtain ⟨s, hmem, hid, hprev, hnum⟩ := hs.symm.mem ht
    have hn := h.named s hmem
    exact ⟨⟨hid ▸ hprev ▸ hn.prev, hnum ▸ hid ▸ hn.blockNum, hid ▸ hprev ▸ hn.num⟩, hnum ▸ h.deep s hmem⟩
  exact ⟨fun t ht => (hback t ht).1, fun t ht => (hback t ht).2⟩

end

end

section

variable {s s' : State (Store δ τ)} {p : Pending τ} {c : Crypto}

lemma Ledger.Good.withFaults (h : L.Good s) (faults : List (Faults δ)) :
    L.Good { s with store := { s.store with faults := faults } } := ⟨h.rows, h.head, h.agree⟩

lemma Ledger.Good.at (h : L.Good s) (hp : s.store.pending = none) : L.At s.head.id s.store.db := by
  have := h.agree
  rwa [Ledger.Agree, hp] at this

lemma Ledger.Good.open (h : L.Good s) (hp : s.store.pending = some p) : L.Open s.head p s.store.db := by
  have := h.agree
  rwa [Ledger.Agree, hp] at this

def SameHead (s s' : State (Store δ τ)) : Prop := s'.head = s.head ∧ s'.forkDb = s.forkDb

lemma raise_spec (s : State (Store δ τ)) (fault : Option Thrown) :
    Triple (· = s) (raise fault) (fun _ => (· = s)) (fun _ => (· = s)) := by
  cases fault with
  | none => exact .pure _ (fun _ h => h)
  | some e => exact .throw _ (fun _ h => h)

variable {x : Execution δ τ} {head : BlockState}

lemma startState_ok {head p : BlockHeaderState} {when : Slot} {confirmed : ℕ} {d : δ}
    (h : startState c x head when confirmed d = .ok p) : p.blockNum = head.blockNum + 1 ∧ p.header.previous = head.id := by
  obtain ⟨template, ht, h⟩ := bind_ok h
  have htemplate : template.blockNum = head.blockNum + 1 ∧ template.header.previous = head.id := by
    obtain ⟨slot, _, ht⟩ := bind_ok ht
    cases ht
    exact ⟨rfl, rfl⟩
  have hcore := BlockHeaderState.maybePromotePending_core (template.setConfirmed confirmed)
  have hpromoted : (template.setConfirmed confirmed).maybePromotePending.blockNum = head.blockNum + 1 ∧
      (template.setConfirmed confirmed).maybePromotePending.header.previous = head.id :=
    ⟨hcore.blockNum.trans htemplate.1, hcore.previous.trans htemplate.2⟩
  dsimp only at h
  split_ifs at h
  · split at h
    · obtain ⟨_, _, h⟩ := bind_ok h
      obtain ⟨_, _, h⟩ := bind_ok h
      cases h
      exact hpromoted
    · cases h
      exact hpromoted
  · cases h
    exact hpromoted

lemma startBlock_spec (h : L.Good s) (when : Slot) (confirmed : ℕ) (fault : Option Thrown) :
    Triple (· = s) (startBlock c L.execution when confirmed fault)
      (fun _ s' => L.Good s' ∧ SameHead s s' ∧ ∃ p, s'.store.pending = some p ∧ p.stage = .started ∧ p.transactions = [])
      (fun _ => (· = s)) := by
  refine .getBind_eq ?_
  cases hp : s.store.pending with
  | some p => exact .throw _ (fun _ h => h)
  | none =>
    have hat := h.at hp
    split_ifs
    · cases hs : startState c L.execution s.head.toBlockHeaderState when confirmed s.store.db.contents with
      | error e => exact .throw _ (fun _ h => h)
      | ok p =>
        obtain ⟨hnum, hprev⟩ := startState_ok hs
        refine .bind (raise_spec s fault) fun _ => Triple.set ?_
        refine ⟨⟨h.rows.push _, h.head, ?_⟩, ⟨rfl, rfl⟩, _, rfl, rfl, rfl⟩
        exact ⟨cons_ne_nil _ _, hat, congrArg (· + 1) hat.revision, hprev, hnum, rfl⟩
    · exact .throw _ (fun _ h => h)

lemma run_append {header : SignedBlockHeader} {transactions : List τ} {d d' d'' : δ} {t : τ}
    (h : x.run header transactions d = .ok d') (ht : x.execute t d' = .ok d'') :
    x.run header (transactions ++ [t]) d = .ok d'' := by
  rw [Execution.run, foldlM_append]
  refine result_bind.mpr ⟨d', h, ?_⟩
  rw [foldlM_cons]
  exact result_bind.mpr ⟨d'', ht, rfl⟩

lemma pushTransaction_spec (h : L.Good s) (hp : s.store.pending = some p) (hs : p.stage = .started) (t : τ)
    (fault : Option Thrown) :
    Triple (· = s) (pushTransaction L.execution t fault)
      (fun r s' => L.Good s' ∧ SameHead s s' ∧ (r = none → ∃ p', s'.store.pending = some p' ∧ p'.stage = .started ∧
        p'.transactions = p.transactions ++ [t]))
      (fun _ => (· = s)) := by
  refine .getBind_eq ?_
  rw [hp]
  refine .bind (raise_spec s fault) fun _ => ?_
  have ho := h.open hp
  cases hx : L.execution.execute t s.store.db.contents with
  | error e => exact .pure_eq ⟨h, ⟨rfl, rfl⟩, fun hr => by cases hr⟩
  | ok d =>
    refine .setBind (.pure_eq ⟨⟨h.rows.setContents d, h.head, ?_⟩, ⟨rfl, rfl⟩, fun _ => ⟨_, rfl, hs, rfl⟩⟩)
    have hrun := ho.progress
    rw [Ledger.Progress, hs] at hrun
    refine ⟨ho.session, ?_, ho.revision, ho.prev, ho.blockNum, ?_⟩
    · exact (Sessions.undo_eq ho.session d).symm ▸ ho.below
    · rw [Ledger.Progress, hs, Sessions.undo_eq ho.session d]
      exact run_append hrun hx

lemma Ledger.Open.fail {db : Sessions δ} (ho : L.Open head p db) (d : δ) :
    L.Open head { p with stage := .failed } { db with contents := d } := by
  refine ⟨ho.session, ?_, ho.revision, ho.prev, ho.blockNum, trivial⟩
  rw [Sessions.undo_eq ho.session d]
  exact ho.below

def Ledger.Identifies (L : Ledger δ τ) (id : BlockId) (p : Pending τ) : Prop :=
  L.body id = ⟨p.block.header, p.transactions⟩ ∧ L.num id = p.block.blockNum

lemma Ledger.Open.finalize {db : Sessions δ} (ho : L.Open head p db) (hn : L.Named head)
    (hs : p.stage = .started) {id : BlockId} (hid : L.Identifies id p) {d : δ}
    (hf : L.execution.finish id db.contents = .ok d) :
    L.Open head { p with block := { p.block with id := id }, stage := .finalized } { db with contents := d } := by
  obtain ⟨hbody, hnum⟩ := hid
  have hprev : L.prev id = p.block.prev := by rw [Ledger.prev, hbody]; rfl
  have hrun := ho.progress
  rw [Ledger.Progress, hs] at hrun
  refine ⟨ho.session, ?_, ho.revision, ho.prev, ho.blockNum, ⟨hprev, hnum.symm, ?_⟩, ?_⟩
  · rw [Sessions.undo_eq ho.session d]
    exact ho.below
  · change L.num id = L.num p.block.prev + 1
    rw [hnum, ho.blockNum, ho.prev, hn.blockNum]
  · rw [Sessions.undo_eq ho.session d]
    change L.execution.run (L.body id).header (L.body id).transactions _ >>= L.execution.finish id = _
    rw [hbody]
    exact result_bind.mpr ⟨_, hrun, hf⟩

def Ledger.Abortable (L : Ledger δ τ) (s : State (Store δ τ)) : Prop :=
  L.Rows s.forkDb.index s.store.db ∧ L.Named s.head ∧
    match s.store.pending with
    | none => L.At s.head.id s.store.db
    | some _ => L.At s.head.id s.store.db.undo

lemma Ledger.Good.abortable (h : L.Good s) : L.Abortable s := by
  refine ⟨h.rows, h.head, ?_⟩
  cases hp : s.store.pending with
  | none => exact h.at hp
  | some p => exact (h.open hp).below

structure Finished (s : State (Store δ τ)) (id : BlockId) (p : Pending τ) (L : Ledger δ τ) (s' : State (Store δ τ)) : Prop where
  sameHead : SameHead s s'
  pending : s'.store.pending = some { p with block := { p.block with id := id }, stage := .finalized }
  abortable : L.Abortable s'
  good : L.Identifies id p → L.Good s'

lemma finalizeBlock_finished (h : L.Good s) (hp : s.store.pending = some p) (hs : p.stage = .started) (id : BlockId)
    (fault : Option (Thrown × δ)) :
    Triple (· = s) (finalizeBlock L.execution id fault) (fun _ s' => Finished s id p L s')
      (fun _ s' => L.Good s' ∧ SameHead s s') := by
  have ho := h.open hp
  refine .getBind_eq ?_
  rw [hp]
  cases fault with
  | some fault =>
    exact .setBind (.throw_eq ⟨⟨h.rows.setContents fault.2, h.head, ho.fail fault.2⟩, rfl, rfl⟩)
  | none =>
    cases hf : L.execution.finish id s.store.db.contents with
    | error e =>
      exact .setBind (.throw_eq ⟨⟨h.rows.setContents _, h.head, ho.fail _⟩, rfl, rfl⟩)
    | ok d =>
      refine .set ⟨⟨rfl, rfl⟩, rfl, ⟨h.rows.setContents d, h.head, ?_⟩, fun hid => ?_⟩
      · change L.At s.head.id (Sessions.undo { s.store.db with contents := d })
        rw [Sessions.undo_eq ho.session d]
        exact ho.below
      · exact ⟨h.rows.setContents d, h.head, ho.finalize h.head hs hid hf⟩

lemma finalizeBlock_spec (h : L.Good s) {id : BlockId} (hp : s.store.pending = some p) (hs : p.stage = .started)
    (fault : Option (Thrown × δ)) (hid : L.Identifies id p) :
    Triple (· = s) (finalizeBlock L.execution id fault) (fun _ => L.Good) (fun _ s' => L.Good s' ∧ SameHead s s') :=
  (finalizeBlock_finished h hp hs id fault).conseq (fun _ h => h) (fun _ _ hf => hf.good hid) fun _ _ h => h

lemma abortBlock_abortable (h : L.Abortable s) :
    Triple (· = s) abortBlock (fun _ s' => L.Good s' ∧ SameHead s s' ∧ s'.store.pending = none) (fun _ _ => False) := by
  obtain ⟨hrows, hhead, hagree⟩ := h
  refine .modify ?_
  intro s' hs'
  rw [hs']
  cases hp : s.store.pending with
  | none =>
    rw [hp] at hagree
    refine ⟨⟨hrows, hhead, ?_⟩, ⟨rfl, rfl⟩, hp⟩
    rw [Ledger.Agree, hp]
    exact hagree
  | some p =>
    rw [hp] at hagree
    exact ⟨⟨hrows.undo, hhead, hagree⟩, ⟨rfl, rfl⟩, rfl⟩

lemma abortBlock_spec (h : L.Good s) :
    Triple (· = s) abortBlock (fun _ s' => L.Good s' ∧ SameHead s s' ∧ s'.store.pending = none) (fun _ _ => False) :=
  abortBlock_abortable h.abortable

end

end XosChain.Controller
