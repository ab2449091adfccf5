import XosChain.Governance.Packing

namespace XosChain.BlockLog

open Raw

def minSupportedVersion : ℕ := 1
def maxSupportedVersion : ℕ := 2
def npos : ℕ := 2 ^ 64 - 1

structure Formats (Block Genesis : Type) where
  packBlock : Block → Bytes
  unpackBlock : Bytes → Option (Block × Bytes)
  unpackBlock_pack : ∀ b rest, unpackBlock (packBlock b ++ rest) = some (b, rest)
  packGenesis : Genesis → Bytes
  unpackGenesis : Bytes → Option (Genesis × Bytes)
  unpackGenesis_pack : ∀ gs rest, unpackGenesis (packGenesis gs ++ rest) = some (gs, rest)
  blockNum : Block → Fin (2 ^ 32)

section

structure Stream where
  bytes : Bytes := []
  writing : Bool := true
deriving DecidableEq

def failure : Thrown := ⟨.iosFailure, "basic_ios::clear"⟩

def Stream.check (s : Stream) (writing : Bool) : Stream := { s with writing }

def Stream.write (s : Stream) (b : Bytes) : Result Stream :=
  if s.writing then pure { s with bytes := s.bytes ++ b } else throw failure

def Stream.seek (s : Stream) (pos : ℕ) : Result Bytes :=
  if s.writing then throw failure else pure (s.bytes.drop pos)

def readNumber (n : ℕ) (rest : Bytes) : Result (ℕ × Bytes) :=
  if n ≤ rest.length then pure (ofLittleEndian (rest.take n), rest.drop n) else throw failure

def Stream.readLast (s : Stream) : Result ℕ := do
  eosAssert (8 ≤ s.bytes.length) .iosFailure "basic_ios::clear"
  let (pos, _) ← readNumber 8 (← s.seek (s.bytes.length - 8))
  pure pos

def unpacked {α : Type} (r : Option (α × Bytes)) : Result (α × Bytes) :=
  match r with
  | some r => pure r
  | none => throw failure

end

section

variable {Block Genesis : Type} (F : Formats Block Genesis)

structure State (Block : Type) where
  block : Stream := {}
  index : Stream := {}
  head : Option Block := none
  genesisWrittenToBlockLog : Bool := false
  version : ℕ := 0
  firstBlockNum : ℕ := 0

variable (s : State Block)

def State.checkBlock (writing : Bool) : State Block := { s with block := s.block.check writing }

def State.checkIndex (writing : Bool) : State Block := { s with index := s.index.check writing }

def readBlock (pos : ℕ) : Result (Block × ℕ) := do
  let (b, rest) ← unpacked (F.unpackBlock (← (s.checkBlock false).block.seek pos))
  pure (b, s.block.bytes.length - rest.length + 8)

def getBlockPos (blockNum : ℕ) : Result ℕ :=
  match s.head with
  | none => pure npos
  | some head =>
    if blockNum ≤ F.blockNum head ∧ s.firstBlockNum ≤ blockNum then do
      let (pos, _) ← readNumber 8 (← (s.checkIndex false).index.seek (8 * sub32 blockNum s.firstBlockNum))
      pure pos
    else pure npos

def readBlockAt (blockNum pos : ℕ) : Result (Option Block) :=
  if pos = npos then pure none
  else do
    let (b, _) ← readBlock F s pos
    eosAssert ((F.blockNum b).val = blockNum) .reversibleBlocksException "Wrong block was read from block log."
    pure (some b)

def readBlockByNum (blockNum : ℕ) : Result (Option Block) := do
  readBlockAt F s blockNum (← getBlockPos F s blockNum)

def readHead : Result (Option Block) :=
  if s.block.bytes.length ≤ 8 then pure none
  else do
    let pos ← (s.checkBlock false).block.readLast
    if pos = npos then pure none
    else return some (← readBlock F s pos).1

def walkLog : ℕ → Bytes → ℕ → ℕ → Stream → Result Stream
  | 0, _, _, _, _ => throw failure
  | fuel + 1, rest, pos, endPos, index =>
    if pos < endPos then do
      let (_, rest) ← unpacked (F.unpackBlock rest)
      let (pos, rest) ← readNumber 8 rest
      walkLog fuel rest pos endPos (← index.write (littleEndian 8 pos))
    else pure index

def skipTotem (rest : Bytes) : Result Bytes :=
  if s.version > 1 then return (← readNumber 8 rest).2 else pure rest

def constructIndex : Result (State Block) := do
  let s := { s.checkBlock false with index := {} }
  let endPos ← s.block.readLast
  let pos := if s.version = 1 then 4 else 8
  let (_, rest) ← unpacked (F.unpackGenesis (← s.block.seek pos))
  let rest ← skipTotem s rest
  let index ← walkLog F (s.block.bytes.length + 1) rest pos endPos s.index
  pure { s with index }

def readFirstBlockNum (version : ℕ) (rest : Bytes) : Result ℕ :=
  if version > 1 then do
    let (firstBlockNum, _) ← readNumber 4 rest
    eosAssert (firstBlockNum > 0) .blockLogException
      "Block log is malformed, first recorded block number is 0 but must be greater than or equal to 1"
    pure firstBlockNum
  else pure 1

def readHeader : Result (State Block) := do
  let s := s.checkBlock false
  let (version, rest) ← readNumber 4 (← s.block.seek 0)
  eosAssert (version > 0) .blockLogException "Block log was not setup properly"
  eosAssert (minSupportedVersion ≤ version ∧ version ≤ maxSupportedVersion) .blockLogUnsupportedVersion
    "Unsupported version of block log."
  let firstBlockNum ← readFirstBlockNum version rest
  pure { s with version, genesisWrittenToBlockLog := true, firstBlockNum }

def headOf (head : Option Block) : Result Block :=
  match head with
  | some b => pure b
  | none => throw ⟨.undefinedBehavior, "head is null"⟩

def checkHeads : Result (State Block) :=
  if s.index.bytes.length ≠ 0 then do
    let s := (s.checkBlock false).checkIndex false
    let blockPos ← s.block.readLast
    let indexPos ← s.index.readLast
    if blockPos < indexPos then constructIndex F s
    else if blockPos > indexPos then constructIndex F s
    else pure s
  else constructIndex F s

def openFiles (log index : Bytes) : Result (State Block) :=
  let s : State Block := { block := { bytes := log }, index := { bytes := index } }
  if log.length ≠ 0 then do
    let s ← readHeader s
    let head ← headOf (← readHead F s)
    checkHeads F { s with head := some head }
  else if index.length ≠ 0 then pure { s with index := {} }
  else pure s

def append (b : Block) : Result (State Block) := do
  eosAssert (s.genesisWrittenToBlockLog = true) .blockLogAppendFail
    "Cannot append to block log until the genesis is first written"
  let s := (s.checkBlock true).checkIndex true
  let pos := s.block.bytes.length
  eosAssert (s.index.bytes.length = 8 * sub32 (F.blockNum b) s.firstBlockNum) .blockLogAppendFail
    "Append to index file occuring at wrong position."
  let block ← s.block.write (F.packBlock b)
  let block ← block.write (littleEndian 8 pos)
  let index ← s.index.write (littleEndian 8 pos)
  pure { s with block, index, head := some b }

def appendFirst (firstBlock : Option Block) : Result (State Block) :=
  match firstBlock with
  | some b => append F s b
  | none => pure s

def reset (gs : Genesis) (firstBlock : Option Block) (firstBlockNum : Fin (2 ^ 32)) : Result (State Block) := do
  let block ← Stream.write {} (littleEndian 4 0)
  let block ← block.write (littleEndian 4 firstBlockNum)
  let block ← block.write (F.packGenesis gs)
  let block ← block.write (littleEndian 8 npos)
  let s := { s with block, index := {}, version := 0, firstBlockNum := firstBlockNum.val,
                    genesisWrittenToBlockLog := true }
  let s ← appendFirst F s firstBlock
  pure { s with version := maxSupportedVersion
                block := { bytes := littleEndian 4 maxSupportedVersion ++ s.block.bytes.drop 4 } }

inductive Op (Block Genesis : Type) where
  | reset (gs : Genesis) (firstBlock : Option Block) (firstBlockNum : Fin (2 ^ 32))
  | append (b : Block)
  | reopen (cut : ℕ)

def State.apply : Op Block Genesis → Result (State Block)
  | .reset gs firstBlock firstBlockNum => BlockLog.reset F s gs firstBlock firstBlockNum
  | .append b => BlockLog.append F s b
  | .reopen cut => openFiles F s.block.bytes (s.index.bytes.take cut)

end

end XosChain.BlockLog
