import XosChain.Fork.Head
import XosChain.Fork.Run

namespace XosChain.Fork

open Lib Header

namespace ForkDatabase

def KeepsHead (db : ForkDatabase) : Op → Prop
  | .addConfirmation conf => db.ConfirmKeepsHead conf
  | .prune _ h => db.Prunable h
  | _ => True

instance (db : ForkDatabase) : Decidable db.HeadMaximal := by
  unfold HeadMaximal
  infer_instance

section

variable {c : Crypto} {db db' : ForkDatabase} {op : Op}

lemma ordered_of_child {p s : BlockHeaderState} (hp : p.Ordered) (h : p.Child c s) : s.Ordered := by
  obtain ⟨_, _, he⟩ := h.extends
  exact he.ordered hp

lemma addBlock_good {handler : Handler} {b : SignedBlockHeader} {trust : Bool} :
    Triple Good (addBlock c handler b trust) (fun _ => Good) GoodUnless := by
  refine .pointwise fun db hg => addBlock_rule (fun _ _ => hg) fun prior result hp hn => ?_
  have hprior := hg.ordered prior (Index.find?_eq_some.mp hp).1
  exact (add_good (ordered_of_child hprior (.next b trust hn))).of_eq hg

lemma exec_good (hg : db.Good) (ha : db.Admissible c op) (hk : db.KeepsHead op) :
    Triple (· = db) (exec c op) (fun _ => Good) GoodUnless := by
  cases op with
  | add handler n =>
    obtain ⟨p, hp, hc⟩ := ha
    exact (add_good (ordered_of_child (hg.ordered p hp) hc)).of_eq hg
  | addBlock handler b trust => exact addBlock_good.of_eq hg
  | addConfirmation conf => exact (addConfirmation_good.weaken goodUnless_of_good).of_eq ⟨hg, hk⟩
  | remove id => exact (remove_good.weaken goodUnless_of_undefined).of_eq hg.ordered
  | setValidity h valid => exact (setValidity_good.weaken goodUnless_of_undefined).of_eq hg
  | prune handler h => exact prune_good.of_eq ⟨hg, hk⟩
  | markInCurrentChain h flag => exact ((markInCurrentChain_good h flag).weaken goodUnless_of_good).of_eq hg

lemma Run.good {initialKey : PublicKey} {initialTimestamp : Slot} {chainId : Digest}
    (h : Run c KeepsHead (genesisBlock c initialKey initialTimestamp chainId) db) : db.Good := by
  induction h with
  | start =>
    refine ⟨?_, _, List.mem_singleton_self _, rfl, ?_⟩
    · intro s hs
      rw [List.mem_singleton.mp hs]
      exact BlockHeaderState.genesis_ordered c initialKey initialTimestamp chainId
    · intro t ht
      rw [List.mem_singleton.mp ht]
  | ok _ ha hk hx ih => exact (exec_good ih ha hk).ok rfl hx
  | error _ ha hk hne hx ih => exact (exec_good ih ha hk).error rfl hx hne

end

theorem run_headMaximal {c : Crypto} {initialKey : PublicKey} {initialTimestamp : Slot} {chainId : Digest}
    {db : ForkDatabase} (h : Run c KeepsHead (genesisBlock c initialKey initialTimestamp chainId) db) :
    db.HeadMaximal :=
  h.good.maximal

section

def twoBranches : ForkDatabase :=
  after (exec slotCrypto (.addBlock quiet (childHeader testRoot 2) false))
    (after (exec slotCrypto (.addBlock quiet (childHeader testRoot 1) false)) (ofRoot testRoot))

lemma twoBranches_run {keeps : ForkDatabase → Op → Prop} (hk : ∀ db b, keeps db (.addBlock quiet b false)) :
    Run slotCrypto keeps testRoot twoBranches := by
  apply Run.after
  · apply Run.after
    · exact .start
    · trivial
    · exact hk _ _
    · decide +kernel
  · trivial
  · exact hk _ _
  · decide +kernel

lemma ConfirmKeepsHead.of_head {db : ForkDatabase} {conf : HeaderConfirmation} (hh : db.head = some conf.blockId)
    (hr : ∀ b ∈ db.index.rows, b.id = conf.blockId → ∀ s ∈ db.index.rows,
      (s.setBft b.blockNum).rank ≤ (b.setBft b.blockNum).rank) : db.ConfirmKeepsHead conf := by
  intro b hb _ h hmem hhead s hs _
  obtain ⟨hbmem, hid⟩ := Index.find?_eq_some.mp hb
  obtain rfl := Index.eq_of_id hmem hbmem ((Option.some.inj (hhead.symm.trans hh)).trans hid.symm)
  exact .inr ⟨.self, hr h hmem hid s hs⟩

def headConfirmed : ForkDatabase :=
  after (exec slotCrypto (.addConfirmation (confirmationOf (childHeader testRoot 1)))) twoBranches

lemma headConfirmed_run : Run slotCrypto KeepsHead testRoot headConfirmed := by
  apply Run.after
  · exact twoBranches_run (fun _ _ => trivial)
  · trivial
  · exact ConfirmKeepsHead.of_head (by decide +kernel) (by decide +kernel)
  · decide +kernel

theorem headConfirmed_headMaximal : Run slotCrypto KeepsHead testRoot headConfirmed ∧ headConfirmed.HeadMaximal :=
  ⟨headConfirmed_run, run_headMaximal headConfirmed_run⟩

def secondConfirmed : ForkDatabase :=
  after (exec slotCrypto (.addConfirmation (confirmationOf (childHeader testRoot 2)))) twoBranches

theorem secondConfirmed_not_headMaximal :
    Run slotCrypto (fun _ _ => True) testRoot secondConfirmed ∧ ¬ secondConfirmed.HeadMaximal :=
  ⟨.after (.addConfirmation _) (twoBranches_run (fun _ _ => trivial)) trivial trivial (by decide +kernel),
    by decide +kernel⟩

end

end ForkDatabase

end XosChain.Fork
