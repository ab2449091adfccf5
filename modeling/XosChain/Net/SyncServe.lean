import Mathlib.Data.List.ReduceOption
import XosChain.Basic

namespace XosChain.Net

open List

structure SyncState where
  startBlock : BitVec 32
  endBlock : BitVec 32
  last : BitVec 32

structure Lookup where
  num : BitVec 32
  triggerSend : Bool
  found : Bool

def enqueueSyncBlock (fetchBlock : BitVec 32 → Bool) : Option SyncState → Option Lookup × Option SyncState
  | none => (none, none)
  | some requested =>
    let num := requested.last + 1
    (some ⟨num, num = requested.startBlock, fetchBlock num⟩,
      if num = requested.endBlock then none else some { requested with last := num })

def handleSyncRequest (fetchBlock : BitVec 32 → Bool) (startBlock endBlock : BitVec 32) :
    Option Lookup × Option SyncState :=
  if endBlock = 0 then (none, none) else enqueueSyncBlock fetchBlock (some ⟨startBlock, endBlock, startBlock - 1⟩)

def lookups : List (Option (BitVec 32 → Bool)) → Option SyncState → List Lookup
  | [], _ => []
  | none :: completions, _ => lookups completions none
  | some fetchBlock :: completions, requested =>
    (enqueueSyncBlock fetchBlock requested).1.toList ++ lookups completions (enqueueSyncBlock fetchBlock requested).2

def served (fetchBlock : BitVec 32 → Bool) (startBlock endBlock : BitVec 32)
    (completions : List (Option (BitVec 32 → Bool))) : List Lookup :=
  (handleSyncRequest fetchBlock startBlock endBlock).1.toList ++
    lookups completions (handleSyncRequest fetchBlock startBlock endBlock).2

def enqueued (l : List Lookup) : List ℕ := (l.filter (·.found)).map (·.num.toNat)

def ServedInOrder (startBlock endBlock : BitVec 32) (l : List Lookup) : Prop :=
  enqueued l <+: range' startBlock.toNat (endBlock.toNat + 1 - startBlock.toNat) ∧
    (0 < endBlock.toNat → endBlock < startBlock → enqueued l = [])

def fetches (completions : List (Option (BitVec 32 → Bool))) : List (BitVec 32 → Bool) :=
  (completions.takeWhile Option.isSome).reduceOption

def Found (startBlock : BitVec 32) (calls : List (BitVec 32 → Bool)) (i : ℕ) : Prop :=
  ∃ fetchBlock, calls[i]? = some fetchBlock ∧ fetchBlock (startBlock + BitVec.ofNat 32 i) = true

instance (startBlock : BitVec 32) (calls : List (BitVec 32 → Bool)) (i : ℕ) : Decidable (Found startBlock calls i) :=
  decidable_of_iff (calls[i]?.any fun fetchBlock => fetchBlock (startBlock + BitVec.ofNat 32 i)) (Option.any_eq_true _ _)

structure Fetchable (startBlock endBlock : BitVec 32) (calls : List (BitVec 32 → Bool)) : Prop where
  gapless : startBlock ≤ endBlock → ∀ j ≤ (endBlock - startBlock).toNat, Found startBlock calls j →
    ∀ i < j, Found startBlock calls i
  reversed : 0 < endBlock.toNat → endBlock < startBlock → ∀ i ≤ (endBlock - startBlock).toNat,
    ¬ Found startBlock calls i

section

variable {completions : List (Option (BitVec 32 → Bool))} {r : SyncState} {l : List Lookup}

lemma lookups_none (completions : List (Option (BitVec 32 → Bool))) : lookups completions none = [] := by
  induction completions with
  | nil => rfl
  | cons completion completions ih =>
    cases completion with
    | none => exact ih
    | some fetchBlock => exact ih

def lookup (num startBlock : BitVec 32) (i : ℕ) (fetchBlock : BitVec 32 → Bool) : Lookup :=
  let num := num + BitVec.ofNat 32 i
  ⟨num, num = startBlock, fetchBlock num⟩

lemma lookup_succ (num startBlock : BitVec 32) (i : ℕ) :
    lookup num startBlock (i + 1) = lookup (num + 1) startBlock i := by
  funext fetchBlock
  have hnum : num + BitVec.ofNat 32 (i + 1) = num + 1 + BitVec.ofNat 32 i := by
    rw [BitVec.ofNat_add, BitVec.add_comm (BitVec.ofNat 32 i), ← BitVec.add_assoc]
    rfl
  simp only [lookup, hnum]

lemma lookups_eq (completions : List (Option (BitVec 32 → Bool))) (r : SyncState) :
    lookups completions (some r) =
      ((fetches completions).take ((r.endBlock - (r.last + 1)).toNat + 1)).mapIdx
        (lookup (r.last + 1) r.startBlock) := by
  induction completions generalizing r with
  | nil => rfl
  | cons completion completions ih =>
    cases completion with
    | none => exact lookups_none completions
    | some fetchBlock =>
      have hhead : lookup (r.last + 1) r.startBlock 0 fetchBlock =
          ⟨r.last + 1, r.last + 1 = r.startBlock, fetchBlock (r.last + 1)⟩ := by
        simp [lookup]
      have hfetches : fetches (some fetchBlock :: completions) = fetchBlock :: fetches completions := by
        simp [fetches, reduceOption_cons_of_some]
      rw [hfetches, take_succ_cons, mapIdx_cons, hhead]
      simp only [lookups, enqueueSyncBlock, Option.toList_some, singleton_append, lookup_succ]
      refine congrArg _ ?_
      by_cases hend : r.last + 1 = r.endBlock
      · rw [if_pos hend, lookups_none, hend, BitVec.sub_self]
        rfl
      · rw [if_neg hend, ih]
        have hleft : (r.endBlock - (r.last + 1)).toNat = (r.endBlock - (r.last + 1 + 1)).toNat + 1 := by
          bv_omega
        rw [hleft]

lemma enqueued_eq_nil : enqueued l = [] ↔ ∀ q ∈ l, q.found = false := by
  simp [enqueued]

lemma enqueued_prefix_iff {numbers : List ℕ} (hl : l.map (·.num.toNat) <+: numbers) (hn : numbers.Nodup) :
    enqueued l <+: numbers ↔ l.Pairwise fun a b => b.found → a.found := by
  induction l generalizing numbers with
  | nil => simp [enqueued]
  | cons q l ih =>
    obtain ⟨rest, rfl⟩ := hl
    obtain ⟨hq, hn⟩ := nodup_cons.mp hn
    have hl : l.map (·.num.toNat) <+: l.map (·.num.toNat) ++ rest := prefix_append _ _
    rw [pairwise_cons]
    cases hf : q.found with
    | true =>
      have he : enqueued (q :: l) = q.num.toNat :: enqueued l := by simp [enqueued, hf]
      rw [he, map_cons, cons_append, cons_prefix_cons, ← ih hl hn]
      simp
    | false =>
      have he : enqueued (q :: l) = enqueued l := by simp [enqueued, hf]
      -- what comes after a missing block would have to start with its number
      have hnil : enqueued l <+: q.num.toNat :: (l.map (·.num.toNat) ++ rest) ↔ enqueued l = [] := by
        refine ⟨fun h => ?_, fun h => h ▸ nil_prefix⟩
        cases hx : enqueued l with
        | nil => rfl
        | cons x xs =>
          rw [hx, cons_prefix_cons] at h
          have hmem : x ∈ enqueued l := by
            rw [hx]
            exact mem_cons_self
          obtain ⟨b, hb, hbx⟩ := mem_map.mp hmem
          refine absurd (mem_append_left rest ?_) hq
          exact mem_map.mpr ⟨b, mem_of_mem_filter hb, hbx.trans h.1⟩
      rw [he, map_cons, cons_append, hnil, enqueued_eq_nil]
      refine ⟨fun h => ⟨fun b hb hfound => ?_, ?_⟩, fun h b hb => ?_⟩
      · exact absurd hfound (by simp [h b hb])
      · exact pairwise_of_forall_mem_list fun a _ b hb hfound => absurd hfound (by simp [h b hb])
      · exact Bool.eq_false_iff.mpr fun hfound => absurd (h.1 b hb hfound) (by simp)

end

section

variable (startBlock endBlock : BitVec 32) (calls : List (BitVec 32 → Bool))

def asked : List Lookup :=
  (calls.take ((endBlock - startBlock).toNat + 1)).mapIdx (lookup startBlock startBlock)

lemma found_asked {i : ℕ} : (∃ q, (asked startBlock endBlock calls)[i]? = some q ∧ q.found = true) ↔
    i ≤ (endBlock - startBlock).toNat ∧ Found startBlock calls i := by
  simp only [asked, getElem?_mapIdx, getElem?_take, Nat.lt_succ_iff, Found]
  generalize (endBlock - startBlock).toNat = n
  by_cases hi : i ≤ n
  · simp [hi, lookup]
  · simp [hi]

lemma pairwise_asked : (asked startBlock endBlock calls).Pairwise (fun a b => b.found → a.found) ↔
    ∀ j ≤ (endBlock - startBlock).toNat, Found startBlock calls j → ∀ i < j, Found startBlock calls i := by
  rw [pairwise_iff_getElem]
  constructor
  · intro h j hj hfound i hij
    obtain ⟨q, hq, hfound⟩ := (found_asked startBlock endBlock calls).mpr ⟨hj, hfound⟩
    obtain ⟨hlt, rfl⟩ := List.getElem?_eq_some_iff.mp hq
    have hi := h i j (hij.trans hlt) hlt hij hfound
    exact ((found_asked startBlock endBlock calls).mp ⟨_, getElem?_eq_getElem _, hi⟩).2
  · intro h i j hi hj hij hfound
    obtain ⟨hle, hfound⟩ := (found_asked startBlock endBlock calls).mp ⟨_, getElem?_eq_getElem hj, hfound⟩
    obtain ⟨q, hq, hqf⟩ := (found_asked startBlock endBlock calls).mpr ⟨hij.le.trans hle, h j hle hfound i hij⟩
    rw [getElem?_eq_getElem hi] at hq
    cases hq
    exact hqf

lemma none_asked_found : (∀ q ∈ asked startBlock endBlock calls, q.found = false) ↔
    ∀ i ≤ (endBlock - startBlock).toNat, ¬ Found startBlock calls i := by
  constructor
  · intro h i hi hfound
    obtain ⟨q, hq, hfound⟩ := (found_asked startBlock endBlock calls).mpr ⟨hi, hfound⟩
    rw [h q (mem_of_getElem? hq)] at hfound
    cases hfound
  · intro h q hq
    obtain ⟨i, hq⟩ := mem_iff_getElem?.mp hq
    refine Bool.eq_false_iff.mpr fun hfound => ?_
    obtain ⟨hle, hfound⟩ := (found_asked startBlock endBlock calls).mp ⟨q, hq, hfound⟩
    exact h i hle hfound

lemma asked_numbers (hle : startBlock ≤ endBlock) : (asked startBlock endBlock calls).map (·.num.toNat) <+:
    range' startBlock.toNat (endBlock.toNat + 1 - startBlock.toNat) := by
  have hsub : (endBlock - startBlock).toNat = endBlock.toNat - startBlock.toNat := BitVec.toNat_sub_of_le hle
  have hlen : (asked startBlock endBlock calls).length ≤ endBlock.toNat + 1 - startBlock.toNat := by
    rw [asked, length_mapIdx, hsub]
    have htake := length_take_le (endBlock.toNat - startBlock.toNat + 1) calls
    have hle' : startBlock.toNat ≤ endBlock.toNat := hle
    omega
  have hmap : (asked startBlock endBlock calls).map (·.num.toNat) =
      range' startBlock.toNat (asked startBlock endBlock calls).length := by
    refine ext_getElem (by simp) fun i hi _ => ?_
    rw [length_map] at hi
    have hlt := endBlock.isLt
    simp only [asked, getElem_map, getElem_mapIdx, lookup, getElem_range', BitVec.toNat_add, BitVec.toNat_ofNat,
      Nat.add_mod_mod]
    rw [one_mul, Nat.mod_eq_of_lt (by omega)]
  obtain ⟨k, hk⟩ := Nat.exists_eq_add_of_le hlen
  rw [hmap, hk]
  exact ⟨range' (startBlock.toNat + 1 * (asked startBlock endBlock calls).length) k, range'_append⟩

end

lemma served_eq (fetchBlock : BitVec 32 → Bool) (startBlock : BitVec 32) {endBlock : BitVec 32} (hend : endBlock ≠ 0)
    (completions : List (Option (BitVec 32 → Bool))) :
    served fetchBlock startBlock endBlock completions =
      asked startBlock endBlock (fetches (some fetchBlock :: completions)) := by
  have hserved : served fetchBlock startBlock endBlock completions =
      lookups (some fetchBlock :: completions) (some ⟨startBlock, endBlock, startBlock - 1⟩) := by
    rw [served, handleSyncRequest, if_neg hend, lookups]
  rw [hserved, lookups_eq, asked]
  simp only [BitVec.sub_add_cancel]

theorem sync_request_served (fetchBlock : BitVec 32 → Bool) {startBlock : BitVec 32} (hstart : 1 ≤ startBlock.toNat)
    (endBlock : BitVec 32) (completions : List (Option (BitVec 32 → Bool))) :
    ServedInOrder startBlock endBlock (served fetchBlock startBlock endBlock completions) ↔
      Fetchable startBlock endBlock (fetches (some fetchBlock :: completions)) := by
  by_cases hzero : endBlock = 0
  · have hnone : served fetchBlock startBlock endBlock completions = [] := by
      rw [served, handleSyncRequest, if_pos hzero]
      exact lookups_none completions
    subst hzero
    rw [hnone]
    refine ⟨fun _ => ⟨fun hle => ?_, fun hpos => absurd hpos (by simp)⟩, fun _ => ⟨ nil_prefix, fun _ _ => rfl⟩⟩
    exact absurd (hstart.trans hle) (by simp)
  rw [served_eq fetchBlock startBlock hzero, ServedInOrder]
  by_cases hlt : endBlock < startBlock
  · have hlt' : endBlock.toNat < startBlock.toNat := hlt
    rw [Nat.sub_eq_zero_of_le hlt', range'_zero, prefix_nil, enqueued_eq_nil, none_asked_found]
    refine ⟨fun h => ⟨fun hle => absurd hlt (BitVec.not_lt.mpr hle), fun _ _ => h.1⟩, fun h => ?_⟩
    have hpos : 0 < endBlock.toNat := Nat.pos_of_ne_zero fun h0 => hzero (BitVec.eq_of_toNat_eq h0)
    exact ⟨h.reversed hpos hlt, fun _ _ => h.reversed hpos hlt⟩
  · have hle : startBlock ≤ endBlock := BitVec.not_lt.mp hlt
    rw [enqueued_prefix_iff (asked_numbers startBlock endBlock _ hle) nodup_range', pairwise_asked]
    exact ⟨fun h => ⟨fun _ => h.1, fun _ h' => absurd h' hlt⟩, fun h => ⟨h.gapless hle, fun _ h' => absurd h' hlt⟩⟩

theorem sync_request_served_until_gap :
    1 ≤ (3 : BitVec 32).toNat ∧
    ServedInOrder 3 6 (served (· < 5) 3 6 [some (· < 5), some (· < 5), some (· < 5), some (· < 5)]) ∧
    ¬ ServedInOrder 3 6 (served (· ≠ 4) 3 6 [some (· ≠ 4), some (· ≠ 4), none]) := by
  refine ⟨by decide, ?_, ?_⟩
  · rw [sync_request_served _ (by decide)]
    exact ⟨fun _ => by decide, by decide⟩
  · rw [sync_request_served _ (by decide)]
    exact fun h => absurd (h.gapless (by decide) 2 (by decide) (by decide) 1 (by decide)) (by decide)

theorem sync_request_out_of_order :
    ¬ ServedInOrder 5 3 (served (fun _ => true) 5 3 []) ∧
    ¬ ServedInOrder 1 3 (served (fun n => n ≠ 1) 1 3 [some (fun n => n ≠ 1)]) := by
  constructor
  · rintro ⟨-, h⟩
    exact absurd (h (by decide) (by decide)) (by decide)
  · rintro ⟨h, -⟩
    exact absurd h (by decide)

end XosChain.Net
