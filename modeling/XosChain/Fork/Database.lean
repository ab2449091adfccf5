import XosChain.Fork.Index
import XosChain.Lib.Action

/-! The operations of `fork_database`. Dereferencing the end of an index, or an iterator whose block was
erased, ends the execution with `undefinedBehavior`. -/

namespace XosChain.Fork

open Lib Header BlockState

structure Signal where
  block : BlockState
  index : Index
  head : Option BlockId

structure ForkDatabase where
  index : Index
  head : Option BlockId
  signalled : List Signal

abbrev Action := EStateM Thrown ForkDatabase

def require (p : Prop) [Decidable p] (code : Exception) (what : String) : Action Unit :=
  if p then pure () else throw ⟨code, what⟩

namespace ForkDatabase

def getBlock (db : ForkDatabase) (id : BlockId) : Option BlockState := db.index.find? id

def setIndex (idx : Index) : Action Unit := modify fun db => { db with index := idx }

def refreshHead : Action Unit := do
  match (← get).index.byLibBlockNum.head? with
  | some s => modify fun db => { db with head := some s.id }
  | none => throw ⟨.undefinedBehavior, "begin() of an empty index"⟩

def ofRoot (s : BlockState) : ForkDatabase :=
  ⟨(Index.empty.insert s).getD Index.empty, some s.id, []⟩

def remove (id : BlockId) : Action Unit := do
  setIndex ((← get).index.removeBranch id)
  refreshHead

def setValidity (h : BlockState) (valid : Bool) : Action Unit := do
  if valid = false then remove h.id
  else setIndex ((← get).index.modify h.id .validate validate_id)

def markInCurrentChain (h : BlockState) (flag : Bool) : Action Unit := do
  if h.inCurrentChain = flag then pure ()
  else do
    let db ← get
    require (db.getBlock h.id ≠ none) .forkDbBlockNotFound "could not find block in fork database"
    setIndex (db.index.modify h.id (.mark flag) (mark_id flag))

abbrev Handler := BlockState → Result (Option BlockState)

def irreversible (handler : Handler) (s : BlockState) : Action Unit := do
  modify fun db => { db with signalled := db.signalled ++ [⟨s, db.index, db.head⟩] }
  match handler s with
  | .error e => throw e
  | .ok none => pure ()
  | .ok (some h) => do
    markInCurrentChain h true
    setValidity h true

def lowerBound (db : ForkDatabase) (num : ℕ) : List BlockState :=
  db.index.byBlockNum.dropWhile (fun s => s.blockNum < num)

def pruneSiblings (num : ℕ) : ℕ → Action Unit
  | 0 => pure ()
  | fuel + 1 => do
    match (← get).lowerBound num with
    | [] => pure ()
    | s :: rest =>
      if s.blockNum ≠ num then pure ()
      else do
        remove s.id
        match rest.head? with
        | none => pure ()
        | some next => do
          let db ← get
          require (db.getBlock next.id ≠ none) .undefinedBehavior "iterator to an erased block"
          pruneSiblings num fuel

def releaseBlock (handler : Handler) (h : BlockState) : Action Unit := do
  match (← get).getBlock h.id with
  | some s => do
    irreversible handler s
    setIndex ((← get).index.erase h.id)
  | none => pure ()

def pruneLevel (handler : Handler) (h : BlockState) : Action Unit := do
  releaseBlock handler h
  pruneSiblings h.blockNum (← get).index.rows.length

def pruneLower (handler : Handler) (num : ℕ) : ℕ → Action Unit
  | 0 => pure ()
  | fuel + 1 => do
    match (← get).index.byBlockNum.head? with
    | none => pure ()
    | some s =>
      if s.blockNum < num then do
        pruneLevel handler s
        pruneLower handler num fuel
      else pure ()

def prune (handler : Handler) (h : BlockState) : Action Unit := do
  pruneLower handler h.blockNum (← get).index.rows.length
  pruneLevel handler h

def insertBlock (n : BlockState) : Action Unit := do
  match (← get).index.insert n with
  | none => throw ⟨.forkDatabaseException, "duplicate block added?"⟩
  | some idx => setIndex idx

def add (handler : Handler) (n : BlockState) : Action Unit := do
  insertBlock n
  refreshHead
  let db ← get
  let lib := ((db.head.bind db.getBlock).map (fun s => s.dposIrreversibleBlocknum)).getD 0
  match db.index.byBlockNum.head? with
  | none => pure ()
  | some oldest => if oldest.blockNum < lib then prune handler oldest

def addBlock (c : Crypto) (handler : Handler) (b : SignedBlockHeader) (trust : Bool) : Action Unit := do
  let db ← get
  require (db.head ≠ none) .forkDbBlockNotFound "no head block set"
  require (db.getBlock (b.toBlockHeader.id c) = none) .forkDatabaseException "we already know about this block"
  match db.getBlock b.previous with
  | none => throw ⟨.unlinkableBlockException, "unlinkable block"⟩
  | some prior =>
    match prior.next c b trust with
    | .error e => throw e
    | .ok result => add handler { result with }

def addConfirmation (c : Crypto) (conf : HeaderConfirmation) : Action Unit := do
  match (← get).getBlock conf.blockId with
  | none => throw ⟨.forkDbBlockNotFound, "unable to find block id ${id}"⟩
  | some b =>
    match b.toBlockHeaderState.addConfirmation c conf with
    | .error e => throw e
    | .ok confirmed => do
      setIndex ((← get).index.modify b.id (.confirm conf) (confirm_id conf))
      if confirmed.bftIrreversibleBlocknum < confirmed.blockNum ∧
          confirmed.confirmations.length ≥ BlockHeaderState.requiredConfs confirmed.activeSchedule then
        setIndex ((← get).index.setBftIrreversible b)

end ForkDatabase

end XosChain.Fork
