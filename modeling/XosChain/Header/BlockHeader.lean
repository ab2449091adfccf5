import XosChain.Basic

/-! Block headers, their identifiers and the incremental Merkle tree over them. The hash functions
and the recovery of a signing key come from the `fc` library and stay parameters. -/

namespace XosChain.Header

structure ProducerKey where
  producerName : AccountName
  blockSigningKey : PublicKey
  deriving DecidableEq, Inhabited

structure ProducerSchedule where
  version : ℕ := 0
  producers : List ProducerKey := []
  deriving DecidableEq, Inhabited

def ProducerSchedule.getProducerKey (s : ProducerSchedule) (p : AccountName) : PublicKey :=
  match s.producers.find? (fun i => i.producerName = p) with
  | some i => i.blockSigningKey
  | none => 0

structure BlockHeader where
  timestamp : Slot := 0
  producer : AccountName := 0
  confirmed : ℕ := 1
  previous : BlockId := 0
  transactionMroot : Digest := 0
  actionMroot : Digest := 0
  scheduleVersion : ℕ := 0
  newProducers : Option ProducerSchedule := none
  headerExtensions : List (ℕ × List ℕ) := []
  deriving DecidableEq, Inhabited

structure SignedBlockHeader extends BlockHeader where
  producerSignature : Signature := 0
  deriving DecidableEq, Inhabited

structure HeaderConfirmation where
  blockId : BlockId
  producer : AccountName
  producerSignature : Signature
  deriving DecidableEq

structure Crypto where
  headerDigest : BlockHeader → Digest
  scheduleDigest : ProducerSchedule → Digest
  hashPair : Digest → Digest → Digest
  recover : Signature → Digest → PublicKey

def Crypto.zero : Crypto := ⟨fun _ => 0, fun _ => 0, fun _ _ => 0, fun _ _ => 0⟩

def endianReverseU32 (n : ℕ) : ℕ :=
  (n >>> 24 &&& 0xff) ||| (n >>> 8 &&& 0xff00) ||| (n <<< 8 &&& 0xff0000) ||| (n <<< 24 &&& 0xff000000)

def numFromId (id : BlockId) : ℕ := endianReverseU32 (id &&& 0xffffffff)

def BlockHeader.blockNum (h : BlockHeader) : ℕ := numFromId h.previous + 1

def BlockHeader.id (c : Crypto) (h : BlockHeader) : BlockId :=
  c.headerDigest h >>> 32 <<< 32 + endianReverseU32 h.blockNum

def makeCanonicalLeft (d : Digest) : Digest := d &&& (2 ^ 256 - 1 - 0x80)
def makeCanonicalRight (d : Digest) : Digest := d ||| 0x80

structure IncrementalMerkle where
  nodeCount : ℕ := 0
  activeNodes : List Digest := []
  deriving DecidableEq, Inhabited

namespace IncrementalMerkle

def nextPowerOf2 (value : ℕ) : ℕ :=
  let v := (value + 2 ^ 64 - 1) % 2 ^ 64
  let v := v ||| v >>> 1
  let v := v ||| v >>> 2
  let v := v ||| v >>> 4
  let v := v ||| v >>> 8
  let v := v ||| v >>> 16
  let v := v ||| v >>> 32
  (v + 1) % 2 ^ 64

def clzPower2 (value : ℕ) : ℕ :=
  64 - (if value ≠ 0 then 1 else 0)
    - (if value &&& 0x00000000FFFFFFFF ≠ 0 then 32 else 0)
    - (if value &&& 0x0000FFFF0000FFFF ≠ 0 then 16 else 0)
    - (if value &&& 0x00FF00FF00FF00FF ≠ 0 then 8 else 0)
    - (if value &&& 0x0F0F0F0F0F0F0F0F ≠ 0 then 4 else 0)
    - (if value &&& 0x3333333333333333 ≠ 0 then 2 else 0)
    - (if value &&& 0x5555555555555555 ≠ 0 then 1 else 0)

def calculateMaxDepth (nodeCount : ℕ) : ℕ :=
  if nodeCount = 0 then 0 else clzPower2 (nextPowerOf2 nodeCount) + 1

structure Collapse where
  index : ℕ
  top : Digest
  partialNode : Bool
  active : List Digest
  updated : List Digest

def collapseLevel (c : Crypto) (s : Collapse) : Collapse :=
  if s.index % 2 = 0 then
    { index := s.index / 2
      top := c.hashPair (makeCanonicalLeft s.top) (makeCanonicalRight s.top)
      partialNode := true
      active := s.active
      updated := if s.partialNode then s.updated else s.updated ++ [s.top] }
  else
    let left := s.active.headD 0
    { index := s.index / 2
      top := c.hashPair (makeCanonicalLeft left) (makeCanonicalRight s.top)
      partialNode := s.partialNode
      active := s.active.tail
      updated := if s.partialNode then s.updated ++ [left] else s.updated }

def append (c : Crypto) (m : IncrementalMerkle) (digest : Digest) : IncrementalMerkle :=
  let s := (collapseLevel c)^[calculateMaxDepth (m.nodeCount + 1) - 1] ⟨m.nodeCount, digest, false, m.activeNodes, []⟩
  ⟨m.nodeCount + 1, s.updated ++ [s.top]⟩

def getRoot (m : IncrementalMerkle) : Digest :=
  if m.nodeCount > 0 then m.activeNodes.getLastD 0 else 0

end IncrementalMerkle

end XosChain.Header
