import XosChain.Basic

namespace XosChain.Net

open Function List

inductive Stage where
  | libCatchup
  | headCatchup
  | inSync
  deriving DecidableEq

structure PeerFork where
  forkHead : BlockId := 0
  forkHeadNum : ℕ := 0
  deriving DecidableEq

inductive IdListModes where
  | none
  | catchUp
  deriving DecidableEq

inductive SyncCall where
  | close
  | sendHandshakes
  | requestNextChunk
  | syncWait
  | enqueue (reqBlocks : IdListModes)
  deriving DecidableEq

structure SyncManager where
  state : Stage
  syncKnownLibNum : ℕ
  syncLastRequestedNum : ℕ
  syncNextExpectedNum : ℕ
  source : Option ℕ
  connections : List ℕ
  fork : ℕ → PeerFork

namespace SyncManager

variable {m : SyncManager} {c num : ℕ} {id : BlockId}

def reached (id : BlockId) (num : ℕ) (f : PeerFork) : Bool := f.forkHead = id || f.forkHeadNum < num

def headReached (c : ℕ) (id : BlockId) (num : ℕ) (m : SyncManager) (cp : ℕ) : SyncManager :=
  if (m.fork cp).forkHead = 0 then m
  else if reached id num (m.fork cp) then { m with fork := update m.fork c {} }
  else { m with state := .headCatchup }

def recvBlock (m : SyncManager) (c : ℕ) (id : BlockId) (num : ℕ) : SyncManager × Option SyncCall :=
  match m.state with
  | .libCatchup =>
    if num ≠ m.syncNextExpectedNum then (m, some .close)
    else
      let m := { m with syncNextExpectedNum := (num + 1) % 2 ^ 32 }
      if num = m.syncKnownLibNum then ({ m with state := .inSync }, some .sendHandshakes)
      else if num = m.syncLastRequestedNum then (m, some .requestNextChunk)
      else (m, some .syncWait)
  | .headCatchup => (m.connections.foldl (headReached c id num) { m with state := .inSync, source := none }, none)
  | .inSync => (m, none)

def ahead (id : BlockId) (num : ℕ) (f : PeerFork) : Bool := f.forkHead = id || num < f.forkHeadNum

def verifyCatchup (m : SyncManager) (c num : ℕ) (id : BlockId) : SyncManager × Option SyncCall :=
  -- The loop over the connections breaks after its first round.
  if m.connections.head?.any fun cc => ahead id num (m.fork cc) then
    ({ m with fork := update m.fork c {} }, some (.enqueue .none))
  else
    let m := { m with fork := update m.fork c ⟨id, num⟩ }
    if m.state = .libCatchup then (m, none)
    else ({ m with state := .headCatchup }, some (.enqueue .catchUp))

def ClearsReached (m m' : SyncManager) (id : BlockId) (num : ℕ) : Prop :=
  (∀ x, m'.fork x = if x ∈ m.connections ∧
    ((m.fork x).forkHead = id ∨ (m.fork x).forkHead ≠ 0 ∧ (m.fork x).forkHeadNum < num) then {} else m.fork x) ∧
  (m'.state = .headCatchup ↔ ∃ x ∈ m.connections, (m'.fork x).forkHead ≠ 0)

lemma fork_foldl (l : List ℕ) : (l.foldl (headReached c id num) m).fork =
    if ∃ x ∈ l, (m.fork x).forkHead ≠ 0 ∧ reached id num (m.fork x) then update m.fork c {} else m.fork := by
  induction l generalizing m with
  | nil => simp
  | cons x l ih =>
    simp only [foldl_cons, ih, exists_mem_cons_iff]
    by_cases hnull : (m.fork x).forkHead = 0
    · simp [headReached, hnull]
    · by_cases hreached : reached id num (m.fork x) <;> simp [headReached, hnull, hreached]

lemma state_foldl {l : List ℕ}
    (h : ∀ x ∈ l, x ≠ c → (m.fork x).forkHead ≠ 0 → ¬reached id num (m.fork x)) :
    (l.foldl (headReached c id num) m).state = .headCatchup ↔
      m.state = .headCatchup ∨ ∃ x ∈ l, (m.fork x).forkHead ≠ 0 ∧ ¬reached id num (m.fork x) := by
  induction l generalizing m with
  | nil => simp
  | cons x l ih =>
    obtain ⟨hx, hl⟩ := forall_mem_cons.mp h
    rw [foldl_cons, exists_mem_cons_iff]
    by_cases hnull : (m.fork x).forkHead = 0
    · simp [headReached, ih hl, hnull]
    by_cases hreached : reached id num (m.fork x)
    · obtain rfl : x = c := by_contra fun hne => hx hne hnull hreached
      have hcleared : ∀ y ∈ l, (update m.fork x {} y).forkHead ≠ 0 ∧ ¬reached id num (update m.fork x {} y) ↔
          (m.fork y).forkHead ≠ 0 ∧ ¬reached id num (m.fork y) := by
        intro y _
        by_cases hy : y = x
        · simp [hy, hreached]
        · simp [hy]
      have hnext : headReached x id num m x = { m with fork := update m.fork x {} } := by
        simp [headReached, hnull, hreached]
      rw [hnext, ih fun y hy hne => by simpa [hne] using hl y hy hne]
      simp only [exists_congr fun y => and_congr_right (hcleared y)]
      simp [hreached]
    · have hnext : headReached c id num m x = { m with state := .headCatchup } := by
        simp [headReached, hnull, hreached]
      rw [hnext, ih (m := { m with state := .headCatchup }) hl]
      simp [hnull, hreached]

theorem catch_up_bookkeeping (m : SyncManager) (c num : ℕ) (id : BlockId) :
    (id ≠ 0 → (ClearsReached m (recvBlock { m with state := .headCatchup } c id num).1 id num ↔
      ∀ x ∈ m.connections, x ≠ c → (m.fork x).forkHead ≠ 0 → ¬reached id num (m.fork x))) ∧
    (((m.verifyCatchup c num id).2 = some (.enqueue .catchUp) ↔ ∀ x ∈ m.connections, ¬ahead id num (m.fork x)) ↔
      if m.state = .libCatchup then ∃ x ∈ m.connections, ahead id num (m.fork x)
      else ∀ x ∈ m.connections, ahead id num (m.fork x) →
        m.connections.head?.any fun cc => ahead id num (m.fork cc)) := by
  refine ⟨fun hid => ?_, ?_⟩
  · have hset : ∀ x, ((m.fork x).forkHead = id ∨ (m.fork x).forkHead ≠ 0 ∧ (m.fork x).forkHeadNum < num) ↔
        (m.fork x).forkHead ≠ 0 ∧ reached id num (m.fork x) := by
      intro x
      have hne : (m.fork x).forkHead = id → (m.fork x).forkHead ≠ 0 := fun h => h.trans_ne hid
      simp only [reached, Bool.or_eq_true, decide_eq_true_eq]
      tauto
    refine ⟨fun h x hx hne hnull hreached => ?_, fun h => ?_⟩
    · have hkept : (recvBlock { m with state := .headCatchup } c id num).1.fork x = m.fork x := by
        rw [recvBlock, fork_foldl]
        split_ifs
        · exact update_of_ne hne _ _
        · rfl
      rw [h.1, if_pos ⟨hx, (hset x).mpr ⟨hnull, hreached⟩⟩] at hkept
      exact hnull (congrArg PeerFork.forkHead hkept.symm)
    · have hfork : ∀ x, (recvBlock { m with state := .headCatchup } c id num).1.fork x =
          if x ∈ m.connections ∧ (m.fork x).forkHead ≠ 0 ∧ reached id num (m.fork x) then {} else m.fork x := by
        intro x
        rw [recvBlock, fork_foldl]
        split_ifs with hsome hx hx
        · obtain rfl : x = c := by_contra fun hne => h x hx.1 hne hx.2.1 hx.2.2
          exact update_self _ _ _
        · obtain ⟨y, hy, hnull, hreached⟩ := hsome
          obtain rfl : y = c := by_contra fun hne => h y hy hne hnull hreached
          refine update_of_ne ?_ _ _
          rintro rfl
          exact hx ⟨hy, hnull, hreached⟩
        · exact absurd ⟨x, hx⟩ hsome
        · rfl
      refine ⟨fun x => by simp only [hfork, hset], (state_foldl (m := { m with state := .inSync, source := none })
        h).trans ?_⟩
      simp only [hfork, reduceCtorEq, false_or]
      refine exists_congr fun x => and_congr_right fun hx => ?_
      by_cases hnull : (m.fork x).forkHead = 0 <;> by_cases hreached : reached id num (m.fork x) <;> simp [*]
  · have hsent : (m.verifyCatchup c num id).2 = some (.enqueue .catchUp) ↔
        m.state ≠ .libCatchup ∧ ¬m.connections.head?.any fun cc => ahead id num (m.fork cc) := by
      unfold verifyCatchup
      dsimp only
      split_ifs <;> simp [*]
    rw [hsent]
    cases m.connections with
    | nil => simp
    | cons cc l => cases hcc : ahead id num (m.fork cc) <;> by_cases hstate : m.state = .libCatchup <;> simp [*]

def twoPeers : SyncManager := ⟨.headCatchup, 0, 0, 1, none, [0, 1], update (fun _ => {}) 1 ⟨7, 5⟩⟩

theorem catch_up_misses_second_peer :
    ((twoPeers.recvBlock 0 7 5).1.fork 1).forkHead = 7 ∧ (twoPeers.recvBlock 0 7 5).1.state = .inSync ∧
      (twoPeers.verifyCatchup 0 5 7).2 = some (.enqueue .catchUp) := by
  decide

theorem catch_up_bookkeeping_of_sender : ClearsReached twoPeers (twoPeers.recvBlock 1 7 5).1 7 5 :=
  ((catch_up_bookkeeping twoPeers 1 5 7).1 (by decide)).mpr (by decide)

end SyncManager

end XosChain.Net
