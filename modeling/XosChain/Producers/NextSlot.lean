import XosChain.Producers.Plugin

namespace XosChain.Producers

open Lib Header Header.BlockHeaderState Config List ProducerKey

def minimumOffset (watermark : Option ℕ) (blockNum : ℕ) : ℕ :=
  match watermark with
  | none => 1
  | some w => if w > blockNum then (w - blockNum + 1) % 2 ^ 32 else 1

def nextProducerSlot (size producerIndex : ℕ) (minimumSlot : Slot) : Slot :=
  let minimumSlotProducerIndex := minimumSlot % (size * producerRepetitions) / producerRepetitions
  if producerIndex = minimumSlotProducerIndex then minimumSlot
  else
    let distance := (producerIndex + 2 ^ 64 - minimumSlotProducerIndex) % 2 ^ 64
    let producerDistance := if distance > producerIndex then (distance + size) % 2 ^ 64 else distance
    let firstMinimumProducerSlot := minimumSlot - minimumSlot % producerRepetitions
    (firstMinimumProducerSlot + producerDistance * producerRepetitions) % 2 ^ 32

def calculateNextBlockTime (watermarks : FlatMap AccountName ℕ) (hbs : BlockHeaderState) (pending : Bool)
    (producerName : AccountName) (currentSlot : Slot) : Option ℕ :=
  let activeSchedule := hbs.activeSchedule.producers
  match activeSchedule.findIdx? (fun asp => asp.producerName = producerName) with
  | none => none
  | some producerIndex =>
    let blockNum := if pending then (hbs.blockNum + 1) % 2 ^ 32 else hbs.blockNum
    let minimumSlot := (currentSlot + minimumOffset (watermarks.find? producerName) blockNum) % 2 ^ 32
    some (toTimePoint (nextProducerSlot activeSchedule.length producerIndex minimumSlot))

lemma producerIndex_eq (t size : ℕ) :
    t % (size * producerRepetitions) / producerRepetitions = t / producerRepetitions % size :=
  Nat.mod_mul_left_div_self t producerRepetitions size

lemma distance_spec {size i b : ℕ} (hi : i < size) (hb : b % size ≠ i) (hsize : size < 2 ^ 64) :
    ∃ d, (if (i + 2 ^ 64 - b % size) % 2 ^ 64 > i then ((i + 2 ^ 64 - b % size) % 2 ^ 64 + size) % 2 ^ 64
        else (i + 2 ^ 64 - b % size) % 2 ^ 64) = d ∧
      (b + d) % size = i ∧ ∀ e, b ≤ e → e % size = i → b + d ≤ e := by
  have hlt : b % size < size := Nat.mod_lt _ (by omega)
  have hleast : ∀ d < size, (b + d) % size = i → ∀ e, b ≤ e → e % size = i → b + d ≤ e := by
    intro d hd hbd e hbe he
    obtain ⟨k, rfl⟩ := Nat.exists_eq_add_of_le hbe
    by_contra hlt
    have hmod : d % size = k % size := Nat.ModEq.add_left_cancel' b (hbd.trans he.symm)
    rw [Nat.mod_eq_of_lt hd, Nat.mod_eq_of_lt (by omega)] at hmod
    omega
  have hb0 : b = size * (b / size) + b % size := (Nat.div_add_mod b size).symm
  rcases Nat.lt_or_gt_of_ne hb with hless | hmore
  · have hd : (i + 2 ^ 64 - b % size) % 2 ^ 64 = i - b % size := by omega
    have hmod : (b + (i - b % size)) % size = i := by
      rw [show b + (i - b % size) = i + size * (b / size) by omega, Nat.add_mul_mod_self_left, Nat.mod_eq_of_lt hi]
    exact ⟨i - b % size, by rw [hd, if_neg (by omega)], hmod, hleast _ (by omega) hmod⟩
  · have hd : (i + 2 ^ 64 - b % size) % 2 ^ 64 = i + 2 ^ 64 - b % size := by omega
    have hmod : (b + (i + size - b % size)) % size = i := by
      rw [show b + (i + size - b % size) = i + size * (b / size + 1) by rw [mul_add]; omega,
        Nat.add_mul_mod_self_left, Nat.mod_eq_of_lt hi]
    exact ⟨i + size - b % size, by rw [hd, if_pos (by omega)]; omega, hmod, hleast _ (by omega) hmod⟩

lemma nextProducerSlot_spec {size i : ℕ} (m : ℕ) (hi : i < size) (hsize : size < 2 ^ 64) :
    ∃ q, IsLeast {q | m ≤ q ∧ q / producerRepetitions % size = i} q ∧
      (q < 2 ^ 32 → nextProducerSlot size i m = q) := by
  have hr : producerRepetitions = 12 := rfl
  by_cases hm : m / producerRepetitions % size = i
  · exact ⟨m, ⟨⟨le_rfl, hm⟩, fun q hq => hq.1⟩, fun _ => by rw [nextProducerSlot, producerIndex_eq, if_pos hm.symm]⟩
  · obtain ⟨d, hd, hmod, hleast⟩ := distance_spec hi hm hsize
    have hd0 : d ≠ 0 := by rintro rfl; exact hm hmod
    have hdiv := Nat.div_add_mod m producerRepetitions
    refine ⟨producerRepetitions * (m / producerRepetitions + d), ⟨⟨?_, ?_⟩, ?_⟩, ?_⟩
    · rw [hr] at hdiv ⊢; omega
    · rw [Nat.mul_div_cancel_left _ (by rw [hr]; omega)]; exact hmod
    · rintro q ⟨hq, hi⟩
      have := hleast _ (Nat.div_le_div_right hq) hi
      have := Nat.mul_div_le q producerRepetitions
      exact (Nat.mul_le_mul_left _ ‹_›).trans this
    · intro hfit
      have hfirst : m - m % producerRepetitions = producerRepetitions * (m / producerRepetitions) := by
        rw [Nat.sub_eq_iff_eq_add (Nat.mod_le _ _), hdiv]
      simp only [nextProducerSlot, producerIndex_eq, if_neg (Ne.symm hm), hd, hfirst]
      rw [mul_comm d, ← mul_add, Nat.mod_eq_of_lt hfit]

lemma scheduled_iff {hbs : BlockHeaderState} {name : AccountName} {i : ℕ}
    (hnodup : (hbs.activeSchedule.producers.map producerName).Nodup)
    (hi : hbs.activeSchedule.producers.findIdx? (fun asp => asp.producerName = name) = some i) (q : Slot) :
    (hbs.getScheduledProducer q).producerName = name ↔
      q / producerRepetitions % hbs.activeSchedule.producers.length = i := by
  obtain ⟨hlt, hname, _⟩ := findIdx?_eq_some_iff_getElem.mp hi
  have hj : q / producerRepetitions % hbs.activeSchedule.producers.length < hbs.activeSchedule.producers.length :=
    Nat.mod_lt _ (by omega)
  rw [getScheduledProducer, producerIndex_eq, getD_eq_getElem?_getD, getElem?_eq_getElem hj, Option.getD_some]
  constructor
  · intro h
    have heq := inj_on_of_nodup_map hnodup (getElem_mem hj) (getElem_mem hlt)
      (h.trans (of_decide_eq_true hname).symm)
    exact (List.Nodup.getElem_inj_iff (List.Nodup.of_map _ hnodup)).mp heq
  · intro h
    simpa [h] using hname

theorem calculateNextBlockTime_isLeast (watermarks : FlatMap AccountName ℕ) {hbs : BlockHeaderState} (pending : Bool)
    {name : AccountName} (s : Slot) {num m : ℕ}
    (hnodup : (hbs.activeSchedule.producers.map producerName).Nodup)
    (hmem : name ∈ hbs.activeSchedule.producers.map producerName)
    (hsize : hbs.activeSchedule.producers.length < 2 ^ 64)
    (hnum : num = hbs.blockNum + pending.toNat) (hfits : num < 2 ^ 32)
    (hm : m = (watermarks.find? name).elim 1 fun w => if w > num then w - num + 1 else 1) :
    ∃ q, IsLeast {q | s + m ≤ q ∧ (hbs.getScheduledProducer q).producerName = name} q ∧
      (q < 2 ^ 32 → calculateNextBlockTime watermarks hbs pending name s = some (toTimePoint q)) := by
  obtain ⟨i, hi⟩ : ∃ i, hbs.activeSchedule.producers.findIdx? (fun asp => asp.producerName = name) = some i := by
    rw [← Option.isSome_iff_exists, findIdx?_isSome]
    simpa using hmem
  obtain ⟨hlt, -⟩ := findIdx?_eq_some_iff_getElem.mp hi
  obtain ⟨q, hleast, hq⟩ := nextProducerSlot_spec (s + m) hlt hsize
  simp only [← scheduled_iff hnodup hi] at hleast
  refine ⟨q, hleast, fun hfit => ?_⟩
  have hsm : s + m < 2 ^ 32 := hleast.1.1.trans_lt hfit
  have hm32 : m < 2 ^ 32 := (Nat.le_add_left m s).trans_lt hsm
  have hblock : (if pending then (hbs.blockNum + 1) % 2 ^ 32 else hbs.blockNum) = num := by
    cases pending with
    | true => rw [if_pos rfl, hnum, Nat.mod_eq_of_lt (hnum ▸ hfits)]; rfl
    | false => rw [if_neg Bool.false_ne_true, hnum]; rfl
  have hoffset : minimumOffset (watermarks.find? name) num = m := by
    cases hw : watermarks.find? name with
    | none => rw [hm, hw]; rfl
    | some w =>
      rw [hw, Option.elim_some] at hm
      simp only [minimumOffset]
      split_ifs at hm ⊢ <;> omega
  simp only [calculateNextBlockTime, hi, hblock, hoffset, Nat.mod_eq_of_lt hsm, hq hfit]

def twoProducers : BlockHeaderState :=
  { blockNum := 7, activeSchedule := { producers := [⟨1, 10⟩, ⟨2, 20⟩] } }

theorem calculateNextBlockTime_isLeast_at_two :
    ∃ q, IsLeast {q | 10 + 4 ≤ q ∧ (twoProducers.getScheduledProducer q).producerName = 1} q ∧
      (q < 2 ^ 32 → calculateNextBlockTime (FlatMap.empty.set 1 11) twoProducers true 1 10 = some (toTimePoint q)) :=
  calculateNextBlockTime_isLeast _ true 10 (by decide) (by decide) (by decide)
    (rfl : 8 = twoProducers.blockNum + true.toNat) (by decide) rfl

end XosChain.Producers
