import XosChain.MultiIndex.Table

namespace XosChain.MultiIndex

open Raw

structure Block where
  size : ℕ
  alloc : Bool
deriving DecidableEq

def sizeMarker : ℕ := 4

def mergeContiguous (needed possible : ℕ) : List Block → ℕ × List Block
  | [] => (possible, [])
  | b :: rest =>
    if possible < needed ∧ b.alloc = false then mergeContiguous needed (possible + b.size + sizeMarker) rest
    else (possible, b :: rest)

def mallocFromFreed (size : ℕ) : ℕ → ℕ → List Block → Option ℕ
  | 0, _, _ => none
  | _ + 1, _, [] => none
  | fuel + 1, current, b :: rest =>
    if b.alloc then mallocFromFreed size fuel (current + b.size + sizeMarker) rest
    else
      let (possible, rest) := mergeContiguous size b.size rest
      if size ≤ possible then some current
      else mallocFromFreed size fuel (current + possible + sizeMarker) rest

def addressOf (before : List Block) : ℕ := sizeMarker + (before.map fun b => b.size + sizeMarker).sum

structure Heap where
  before : List Block
  buffer : ℕ
  behind : List Block

def Heap.blocks (h : Heap) : List Block := h.before ++ ⟨h.buffer, false⟩ :: h.behind

def overwrite (b : Bytes) (w : ℕ × Bytes) : Bytes := b.take w.1 ++ w.2 ++ b.drop (w.1 + w.2.length)

def Heap.env (h : Heap) (itemSize : ℕ) (members : List (ℕ × Bytes)) : Env where
  reread b :=
    if mallocFromFreed itemSize h.blocks.length sizeMarker h.blocks = some (addressOf h.before) then
      members.foldl overwrite b
    else b

end XosChain.MultiIndex
