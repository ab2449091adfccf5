import XosChain.Fork.Database
import XosChain.Header.Irreversible

namespace XosChain.Fork

open Lib Header ForkDatabase

inductive Op where
  | add (handler : Handler) (n : BlockState)
  | addBlock (handler : Handler) (b : SignedBlockHeader) (trust : Bool)
  | addConfirmation (conf : HeaderConfirmation)
  | remove (id : BlockId)
  | setValidity (h : BlockState) (valid : Bool)
  | prune (handler : Handler) (h : BlockState)
  | markInCurrentChain (h : BlockState) (flag : Bool)

namespace ForkDatabase

def exec (c : Crypto) : Op → Action Unit
  | .add handler n => add handler n
  | .addBlock handler b trust => addBlock c handler b trust
  | .addConfirmation conf => addConfirmation c conf
  | .remove id => remove id
  | .setValidity h valid => setValidity h valid
  | .prune handler h => prune handler h
  | .markInCurrentChain h flag => markInCurrentChain h flag

def Admissible (c : Crypto) (db : ForkDatabase) : Op → Prop
  | .add _ n => ∃ p ∈ db.index.rows, p.toBlockHeaderState.Child c n.toBlockHeaderState
  | _ => True

inductive Run (c : Crypto) (keeps : ForkDatabase → Op → Prop) (root : BlockState) : ForkDatabase → Prop
  | start : Run c keeps root (ofRoot root)
  | ok {db db' : ForkDatabase} {op : Op} : Run c keeps root db → db.Admissible c op → keeps db op →
    exec c op db = .ok () db' → Run c keeps root db'
  | error {db db' : ForkDatabase} {op : Op} {e : Thrown} : Run c keeps root db → db.Admissible c op → keeps db op →
    e.code ≠ .undefinedBehavior → exec c op db = .error e db' → Run c keeps root db'

def genesisBlock (c : Crypto) (initialKey : PublicKey) (initialTimestamp : Slot) (chainId : Digest) : BlockState :=
  { BlockHeaderState.genesis c initialKey initialTimestamp chainId with }

def after (x : Action Unit) (db : ForkDatabase) : ForkDatabase :=
  match x db with
  | .ok _ db => db
  | .error _ db => db

def returns (x : Action Unit) (db : ForkDatabase) : Bool :=
  match x db with
  | .ok _ _ => true
  | .error _ _ => false

lemma ok_after {x : Action Unit} {db : ForkDatabase} (h : returns x db = true) : x db = .ok () (after x db) := by
  rw [returns] at h
  rw [after]
  cases hx : x db with
  | ok u db' => rfl
  | error e db' =>
    rw [hx] at h
    cases h

lemma Run.after {c : Crypto} {keeps : ForkDatabase → Op → Prop} {root : BlockState} {db : ForkDatabase} (op : Op)
    (hr : Run c keeps root db) (ha : db.Admissible c op) (hk : keeps db op) (h : returns (exec c op) db = true) :
    Run c keeps root (after (exec c op) db) :=
  .ok hr ha hk (ok_after h)

def slotCrypto : Crypto := ⟨fun h => h.timestamp <<< 32, fun _ => 0, fun _ _ => 0, fun _ _ => 1⟩

def quiet : Handler := fun _ => .ok none

def testRoot : BlockState := genesisBlock slotCrypto 1 0 0

def childHeader (p : BlockState) (slot : Slot) : SignedBlockHeader := p.forge ⟨slot, 0, none⟩

def confirmationOf (b : SignedBlockHeader) : HeaderConfirmation :=
  ⟨b.toBlockHeader.id slotCrypto, Config.systemAccountName, 0⟩

end ForkDatabase

end XosChain.Fork
