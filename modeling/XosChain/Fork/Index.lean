import XosChain.Header.State
import XosChain.Lib.OrderedIndex
import XosChain.Lib.Worklist

namespace XosChain.Fork

open Lib Header List

structure BlockState extends BlockHeaderState where
  validated : Bool := false
  inCurrentChain : Bool := false
  deriving DecidableEq, Inhabited

namespace BlockState

def prev (s : BlockState) : BlockId := s.header.previous

def numKey (s : BlockState) : ℕ ×ₗ Bool := toLex (s.blockNum, !s.inCurrentChain)

def rank (s : BlockState) : ℕ ×ₗ ℕ ×ₗ ℕ :=
  toLex (s.dposIrreversibleBlocknum, toLex (s.bftIrreversibleBlocknum, s.blockNum))

def libKey (s : BlockState) : (ℕ ×ₗ ℕ ×ₗ ℕ)ᵒᵈ := OrderDual.toDual s.rank

def setBft (n : ℕ) (s : BlockState) : BlockState := { s with bftIrreversibleBlocknum := n }

def mark (flag : Bool) (s : BlockState) : BlockState := { s with inCurrentChain := flag }

def validate (s : BlockState) : BlockState := { s with validated := true }

def confirm (conf : HeaderConfirmation) (s : BlockState) : BlockState :=
  { s with confirmations := s.confirmations ++ [conf] }

@[simp] lemma setBft_id (n : ℕ) (s : BlockState) : (s.setBft n).id = s.id := rfl

@[simp] lemma mark_id (flag : Bool) (s : BlockState) : (s.mark flag).id = s.id := rfl

@[simp] lemma validate_id (s : BlockState) : s.validate.id = s.id := rfl

@[simp] lemma confirm_id (conf : HeaderConfirmation) (s : BlockState) : (s.confirm conf).id = s.id := rfl

end BlockState

structure Index where
  rows : List BlockState
  byBlockNum : List BlockState
  byLibBlockNum : List BlockState
  nodup : (rows.map (fun s => s.id)).Nodup
  num_perm : byBlockNum.Perm rows
  lib_perm : byLibBlockNum.Perm rows
  num_ordered : Ordered BlockState.numKey byBlockNum
  lib_ordered : Ordered BlockState.libKey byLibBlockNum

namespace Index

def empty : Index := ⟨[], [], [], .nil, .nil, .nil, .nil, .nil⟩

def find? (idx : Index) (id : BlockId) : Option BlockState := findRow (fun s => s.id) id idx.rows

def insert (idx : Index) (s : BlockState) : Option Index :=
  if h : idx.find? s.id = none then
    some
      { rows := idx.rows ++ [s]
        byBlockNum := insertUpper BlockState.numKey s idx.byBlockNum
        byLibBlockNum := insertUpper BlockState.libKey s idx.byLibBlockNum
        nodup := by
          rw [find?, findRow_none] at h
          rw [map_append, map_singleton, ← concat_eq_append]
          exact idx.nodup.concat h
        num_perm := (insertUpper_perm _ s _).trans
          ((idx.num_perm.cons s).trans (perm_append_singleton s idx.rows).symm)
        lib_perm := (insertUpper_perm _ s _).trans
          ((idx.lib_perm.cons s).trans (perm_append_singleton s idx.rows).symm)
        num_ordered := insertUpper_ordered idx.num_ordered
        lib_ordered := insertUpper_ordered idx.lib_ordered }
  else none

def filter (idx : Index) (p : BlockState → Bool) : Index where
  rows := idx.rows.filter p
  byBlockNum := idx.byBlockNum.filter p
  byLibBlockNum := idx.byLibBlockNum.filter p
  nodup := idx.nodup.sublist ((filter_sublist (p := p)).map _)
  num_perm := idx.num_perm.filter p
  lib_perm := idx.lib_perm.filter p
  num_ordered := idx.num_ordered.filter p
  lib_ordered := idx.lib_ordered.filter p

def erase (idx : Index) (id : BlockId) : Index := idx.filter (fun s => s.id ≠ id)

def modify (idx : Index) (id : BlockId) (f : BlockState → BlockState) (hf : ∀ s, (f s).id = s.id) : Index where
  rows := mapRow (fun s => s.id) id f idx.rows
  byBlockNum := updateRow (fun s => s.id) BlockState.numKey id f idx.byBlockNum
  byLibBlockNum := updateRow (fun s => s.id) BlockState.libKey id f idx.byLibBlockNum
  nodup := by
    rw [mapRow_idents (fun s hs => (hf s).trans hs)]
    exact idx.nodup
  num_perm :=
    (updateRow_perm (fun s hs => (hf s).trans hs) ((idx.num_perm.map _).nodup_iff.mpr idx.nodup)).trans
      (idx.num_perm.map _)
  lib_perm :=
    (updateRow_perm (fun s hs => (hf s).trans hs) ((idx.lib_perm.map _).nodup_iff.mpr idx.nodup)).trans
      (idx.lib_perm.map _)
  num_ordered := updateRow_ordered (fun s hs => (hf s).trans hs) idx.num_ordered
  lib_ordered := updateRow_ordered (fun s hs => (hf s).trans hs) idx.lib_ordered

def children (idx : Index) (id : BlockId) : List BlockState := idx.rows.filter (fun s => s.prev = id)

def takeChildren (idx : Index) (id : BlockId) : List BlockId × Index :=
  ((idx.children id).map (fun s => s.id), idx.filter (fun s => s.prev ≠ id))

def removeBranch (idx : Index) (id : BlockId) : Index :=
  worklist takeChildren (idx.rows.length + 1) [id] (idx.erase id)

def liftChildren (n : ℕ) (idx : Index) (id : BlockId) : List BlockId × Index :=
  let lifted := ((idx.children id).filter (fun s => s.bftIrreversibleBlocknum < n)).map (fun s => s.id)
  (lifted, lifted.foldl (fun idx i => idx.modify i (.setBft n) (BlockState.setBft_id n)) idx)

def confirmed (idx : Index) (b : BlockState) : Index :=
  idx.modify b.id (.setBft b.blockNum) (BlockState.setBft_id b.blockNum)

def setBftIrreversible (idx : Index) (s : BlockState) : Index :=
  worklist (liftChildren s.blockNum) (idx.rows.length + 1) [s.id] (idx.confirmed s)

end Index

end XosChain.Fork
