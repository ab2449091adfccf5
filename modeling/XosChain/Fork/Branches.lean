import XosChain.Fork.Index

namespace XosChain.Fork

open Lib Header List BlockState

namespace Index

section

variable {idx idx' : Index} {id : BlockId} {s t : BlockState}

lemma find?_eq_some : idx.find? id = some s ↔ s ∈ idx.rows ∧ s.id = id := findRow_eq_some_iff idx.nodup

lemma find?_eq_none : idx.find? id = none ↔ ∀ s ∈ idx.rows, s.id ≠ id := by
  rw [find?, findRow_none]
  simp

lemma eq_of_id (hs : s ∈ idx.rows) (ht : t ∈ idx.rows) (h : s.id = t.id) : s = t :=
  Option.some.inj ((find?_eq_some.mpr ⟨hs, h⟩).symm.trans (find?_eq_some.mpr ⟨ht, rfl⟩))

lemma insert_eq_some (h : idx.insert s = some idx') : idx.find? s.id = none ∧ idx'.rows = idx.rows ++ [s] := by
  rw [insert] at h
  split_ifs at h with hn
  cases h
  exact ⟨hn, rfl⟩

lemma mem_insert (h : idx.insert s = some idx') : t ∈ idx'.rows ↔ t ∈ idx.rows ∨ t = s := by
  rw [(insert_eq_some h).2, mem_append, mem_singleton]

@[simp] lemma filter_rows (p : BlockState → Bool) : (idx.filter p).rows = idx.rows.filter p := rfl

lemma modify_rows (f : BlockState → BlockState) (hf : ∀ s, (f s).id = s.id) :
    (idx.modify id f hf).rows = mapRow (fun s => s.id) id f idx.rows := rfl

lemma mem_erase : s ∈ (idx.erase id).rows ↔ s ∈ idx.rows ∧ s.id ≠ id := by
  simp [erase]

lemma mem_modify {f : BlockState → BlockState} (hf : ∀ s, (f s).id = s.id) :
    t ∈ (idx.modify id f hf).rows ↔ ∃ s ∈ idx.rows, (if s.id = id then f s else s) = t :=
  mem_map

lemma byBlockNum_head (h : idx.byBlockNum.head? = some s) : s ∈ idx.rows ∧ ∀ t ∈ idx.rows, s.numKey ≤ t.numKey :=
  idx.num_ordered.least idx.num_perm h

lemma byLibBlockNum_head (h : idx.byLibBlockNum.head? = some s) : s ∈ idx.rows ∧ ∀ t ∈ idx.rows, t.rank ≤ s.rank :=
  idx.lib_ordered.least idx.lib_perm h

end

inductive Descends (idx : Index) (root : BlockId) : BlockId → Prop
  | self : Descends idx root root
  | child {s : BlockState} : s ∈ idx.rows → Descends idx root s.prev → Descends idx root s.id

section

variable {idx idx' : Index} {i i' j : BlockId} {num : BlockId → ℕ}

lemma Descends.mono (h : idx.Descends i j) (hsub : ∀ t ∈ idx.rows, t ∈ idx'.rows) : idx'.Descends i j := by
  induction h with
  | self => exact .self
  | child hs _ ih => exact .child (hsub _ hs) ih

lemma Descends.num_le (hnum : ∀ s ∈ idx.rows, num s.id = num s.prev + 1) (h : idx.Descends i j) :
    i = j ∨ num i < num j := by
  induction h with
  | self => exact .inl rfl
  | @child s hs _ ih =>
    have hnext := hnum s hs
    rcases ih with rfl | hlt
    · exact .inr (by omega)
    · exact .inr (by omega)

lemma Descends.unique (num : BlockId → ℕ) (h : idx.Descends i j) (hnum : ∀ s ∈ idx.rows, num s.id = num s.prev + 1)
    (h' : idx.Descends i' j) (he : num i = num i') : i = i' := by
  induction h with
  | self => exact (h'.num_le hnum).elim Eq.symm fun hlt => absurd he hlt.ne'
  | @child s hs hd ih =>
    have hnext := hnum s hs
    have hle := hd.num_le hnum
    generalize hj : s.id = j at h'
    cases h' with
    | self =>
      rw [← hj] at he
      rcases hle with rfl | hlt <;> omega
    | @child s' hs' hd' =>
      obtain rfl := eq_of_id hs hs' hj
      exact ih hd'

end

def ids (idx : Index) : List BlockId := idx.rows.map (fun s => s.id)

def IsChild (idx : Index) (i j : BlockId) : Prop := ∃ s ∈ idx.rows, s.id = j ∧ s.prev = i

section

variable {idx idx' : Index} {id i j : BlockId} {s t : BlockState}

lemma isChild_iff (hs : s ∈ idx.rows) : idx.IsChild i s.id ↔ s.prev = i := by
  constructor
  · rintro ⟨t, ht, hid, hp⟩
    rw [eq_of_id hs ht hid.symm]
    exact hp
  · intro hp
    exact ⟨s, hs, rfl, hp⟩

lemma mem_ids : j ∈ idx.ids ↔ ∃ s ∈ idx.rows, s.id = j := mem_map

lemma takeChildren_takes : Takes takeChildren ids IsChild where
  mem_new idx i j := by
    constructor
    · intro h
      obtain ⟨s, hs, rfl⟩ := mem_map.mp h
      obtain ⟨hs, hp⟩ := mem_filter.mp hs
      exact ⟨mem_ids.mpr ⟨s, hs, rfl⟩, s, hs, rfl, of_decide_eq_true hp⟩
    · rintro ⟨_, s, hs, rfl, hp⟩
      exact mem_map.mpr ⟨s, mem_filter.mpr ⟨hs, decide_eq_true hp⟩, rfl⟩
  mem_rest idx i j := by
    constructor
    · intro h
      obtain ⟨s, hs, rfl⟩ := mem_ids.mp h
      obtain ⟨hs, hp⟩ := mem_filter.mp hs
      exact ⟨mem_ids.mpr ⟨s, hs, rfl⟩, fun hc => of_decide_eq_true hp ((isChild_iff hs).mp hc)⟩
    · rintro ⟨hj, hc⟩
      obtain ⟨s, hs, rfl⟩ := mem_ids.mp hj
      exact mem_ids.mpr ⟨s, mem_filter.mpr ⟨hs, decide_eq_true fun hp => hc ⟨s, hs, rfl, hp⟩⟩, rfl⟩
  length idx i := by
    have h := length_eq_length_filter_add (l := idx.rows) (fun s => decide (s.prev = i))
    simp only [takeChildren, children, ids, filter_rows, length_map, decide_not]
    exact h.symm
  child_iff idx i j k hj := by
    obtain ⟨s, hs, rfl⟩ := mem_ids.mp hj
    rw [isChild_iff hs, isChild_iff (mem_filter.mp hs).1]

lemma Descends.of_reaches (h : Reaches ids IsChild (idx.erase id) [id] j) : Descends idx id j := by
  induction h with
  | start hi _ hc =>
    obtain ⟨s, hs, rfl, hp⟩ := hc
    rw [mem_singleton.mp hi] at hp
    exact .child (mem_erase.mp hs).1 (hp ▸ .self)
  | step _ _ hc ih =>
    obtain ⟨s, hs, rfl, rfl⟩ := hc
    exact .child (mem_erase.mp hs).1 ih

lemma Descends.reaches (h : Descends idx id j) : j = id ∨ Reaches ids IsChild (idx.erase id) [id] j := by
  induction h with
  | self => exact .inl rfl
  | @child s hs _ ih =>
    by_cases hne : s.id = id
    · exact .inl hne
    · have hs' : s ∈ (idx.erase id).rows := mem_erase.mpr ⟨hs, hne⟩
      have hc : (idx.erase id).IsChild s.prev s.id := ⟨s, hs', rfl, rfl⟩
      rcases ih with hp | hr
      · exact .inr (.start (mem_singleton.mpr hp) (mem_ids.mpr ⟨s, hs', rfl⟩) hc)
      · exact .inr (.step hr (mem_ids.mpr ⟨s, hs', rfl⟩) hc)

lemma worklist_takeChildren_rows (fuel : ℕ) (queue : List BlockId) (hs : s ∈ (worklist takeChildren fuel queue idx).rows) :
    s ∈ idx.rows := by
  have h : ∀ t ∈ (worklist takeChildren fuel queue idx).rows, t ∈ idx.rows :=
    worklist_induction (P := fun idx' : Index => ∀ t ∈ idx'.rows, t ∈ idx.rows)
      (fun _ _ h t ht => h t (mem_filter.mp ht).1) fuel queue (fun _ ht => ht)
  exact h s hs

lemma mem_removeBranch : s ∈ (idx.removeBranch id).rows ↔ s ∈ idx.rows ∧ ¬ Descends idx id s.id := by
  have hfuel : [id].length + (idx.erase id).ids.length ≤ idx.rows.length + 1 := by
    have := length_filter_le (fun s : BlockState => decide (s.id ≠ id)) idx.rows
    simp only [ids, length_map, length_singleton, erase, filter_rows]
    omega
  have hids := takeChildren_takes.mem_worklist (j := s.id) hfuel
  constructor
  · intro hs
    have hs' := mem_erase.mp (worklist_takeChildren_rows _ _ hs)
    refine ⟨hs'.1, fun hd => ?_⟩
    rcases hd.reaches with he | hr
    · exact hs'.2 he
    · exact (hids.mp (mem_ids.mpr ⟨s, hs, rfl⟩)).2 hr
  · rintro ⟨hs, hd⟩
    have hne : s.id ≠ id := fun he => hd (he ▸ .self)
    have hkept := hids.mpr ⟨mem_ids.mpr ⟨s, mem_erase.mpr ⟨hs, hne⟩, rfl⟩, fun hr => hd (.of_reaches hr)⟩
    obtain ⟨t, ht, he⟩ := mem_ids.mp hkept
    have ht' := (mem_erase.mp (worklist_takeChildren_rows _ _ ht)).1
    rwa [eq_of_id hs ht' he.symm]

lemma length_lt_of_ids (hs : s ∈ idx.rows) (hsub : ∀ t ∈ idx'.rows, t.id ∈ idx.ids ∧ t.id ≠ s.id) :
    idx'.rows.length < idx.rows.length := by
  have hsub : idx'.ids ⊆ idx.ids.erase s.id := by
    intro j hj
    obtain ⟨t, ht, rfl⟩ := mem_ids.mp hj
    exact (mem_erase_of_ne (hsub t ht).2).mpr (hsub t ht).1
  have hle := (subperm_of_subset idx'.nodup hsub).length_le
  have hmem : s.id ∈ idx.ids := mem_ids.mpr ⟨s, hs, rfl⟩
  rw [length_erase_of_mem hmem] at hle
  have hpos := length_pos_of_mem hmem
  simp only [ids, length_map] at hle hpos
  omega

lemma removeBranch_length_lt (hs : s ∈ idx.rows) : (idx.removeBranch s.id).rows.length < idx.rows.length := by
  refine length_lt_of_ids hs fun t ht => ?_
  obtain ⟨ht, hd⟩ := mem_removeBranch.mp ht
  exact ⟨mem_ids.mpr ⟨t, ht, rfl⟩, fun he => hd (he ▸ .self)⟩

end

inductive Lifted (idx : Index) (b : BlockState) : BlockId → Prop
  | self : Lifted idx b b.id
  | child {s : BlockState} : s ∈ idx.rows → s.bftIrreversibleBlocknum < b.blockNum → Lifted idx b s.prev →
    Lifted idx b s.id

def liftable (n : ℕ) (idx : Index) : List BlockId :=
  (idx.rows.filter (fun s => s.bftIrreversibleBlocknum < n)).map (fun s => s.id)

section

variable {idx : Index} {i j : BlockId} {s t b : BlockState} {n : ℕ}

def raise (n : ℕ) (i : BlockId) (s : BlockState) : BlockState :=
  if s.prev = i ∧ s.bftIrreversibleBlocknum < n then s.setBft n else s

lemma raise_id (n : ℕ) (i : BlockId) (s : BlockState) : (raise n i s).id = s.id := by
  rw [raise]
  split_ifs <;> rfl

lemma raise_prev (n : ℕ) (i : BlockId) (s : BlockState) : (raise n i s).prev = s.prev := by
  rw [raise]
  split_ifs <;> rfl

lemma raise_bft_lt : (raise n i s).bftIrreversibleBlocknum < n ↔ s.bftIrreversibleBlocknum < n ∧ s.prev ≠ i := by
  rw [raise]
  split_ifs with h
  · simp [setBft, h.1]
  · constructor
    · intro hlt
      exact ⟨hlt, fun hp => h ⟨hp, hlt⟩⟩
    · exact And.left

lemma foldl_setBft_rows (n : ℕ) (l : List BlockId) (idx : Index) :
    (l.foldl (fun idx i => idx.modify i (.setBft n) (setBft_id n)) idx).rows =
    idx.rows.map (fun s => if s.id ∈ l then s.setBft n else s) := by
  induction l generalizing idx with
  | nil => simp
  | cons i l ih =>
    rw [foldl_cons, ih, modify_rows, mapRow, map_map]
    apply map_congr_left
    intro s _
    by_cases hi : s.id = i
    · by_cases hl : i ∈ l <;> simp [hi, hl, setBft]
    · simp [hi]

lemma liftChildren_rows (n : ℕ) (idx : Index) (i : BlockId) :
    (liftChildren n idx i).2.rows = idx.rows.map (raise n i) := by
  rw [liftChildren, foldl_setBft_rows]
  apply map_congr_left
  intro s hs
  rw [raise]
  congr 1
  rw [eq_iff_iff]
  constructor
  · intro h
    obtain ⟨t, ht, he⟩ := mem_map.mp h
    obtain ⟨ht, hlt⟩ := mem_filter.mp ht
    obtain ⟨ht, hp⟩ := mem_filter.mp ht
    obtain rfl := eq_of_id ht hs he
    exact ⟨of_decide_eq_true hp, of_decide_eq_true hlt⟩
  · rintro ⟨hp, hlt⟩
    exact mem_map.mpr ⟨s, mem_filter.mpr ⟨mem_filter.mpr ⟨hs, decide_eq_true hp⟩,
      decide_eq_true hlt⟩, rfl⟩

lemma mem_liftable : j ∈ liftable n idx ↔ ∃ s ∈ idx.rows, s.bftIrreversibleBlocknum < n ∧ s.id = j := by
  simp [liftable, and_assoc]

lemma liftable_iff (hs : s ∈ idx.rows) : s.id ∈ liftable n idx ↔ s.bftIrreversibleBlocknum < n := by
  rw [mem_liftable]
  constructor
  · rintro ⟨t, ht, hlt, he⟩
    rwa [← eq_of_id ht hs he]
  · intro hlt
    exact ⟨s, hs, hlt, rfl⟩

lemma liftable_liftChildren (n : ℕ) (idx : Index) (i : BlockId) :
    liftable n (liftChildren n idx i).2 =
    ((idx.rows.filter (fun s => s.bftIrreversibleBlocknum < n)).filter (fun s => !decide (s.prev = i))).map
      (fun s => s.id) := by
  rw [liftable, liftChildren_rows, filter_map, map_map, filter_filter]
  have hp : ((fun s : BlockState => decide (s.bftIrreversibleBlocknum < n)) ∘ raise n i) =
      fun s => !decide (s.prev = i) && decide (s.bftIrreversibleBlocknum < n) := by
    funext s
    simp [raise_bft_lt, Bool.and_comm]
  rw [hp]
  apply map_congr_left
  intro s _
  exact raise_id n i s

lemma isChild_liftChildren (k : BlockId) : (liftChildren n idx i).2.IsChild k j ↔ idx.IsChild k j := by
  simp [IsChild, liftChildren_rows, raise_id, raise_prev]

lemma liftChildren_takes (n : ℕ) : Takes (liftChildren n) (liftable n) IsChild where
  mem_new idx i j := by
    simp only [liftChildren, children, mem_map, mem_filter, decide_eq_true_eq, mem_liftable]
    constructor
    · rintro ⟨s, ⟨⟨hs, hp⟩, hlt⟩, rfl⟩
      exact ⟨⟨s, hs, hlt, rfl⟩, s, hs, rfl, hp⟩
    · rintro ⟨⟨s, hs, hlt, rfl⟩, hc⟩
      exact ⟨s, ⟨⟨hs, (isChild_iff hs).mp hc⟩, hlt⟩, rfl⟩
  mem_rest idx i j := by
    simp only [liftable_liftChildren, mem_map, mem_filter, Bool.not_eq_true', decide_eq_false_iff_not,
      decide_eq_true_eq, mem_liftable]
    constructor
    · rintro ⟨s, ⟨⟨hs, hlt⟩, hp⟩, rfl⟩
      exact ⟨⟨s, hs, hlt, rfl⟩, fun hc => hp ((isChild_iff hs).mp hc)⟩
    · rintro ⟨⟨s, hs, hlt, rfl⟩, hc⟩
      exact ⟨s, ⟨⟨hs, hlt⟩, fun hp => hc ((isChild_iff hs).mpr hp)⟩, rfl⟩
  length idx i := by
    have h := length_eq_length_filter_add (l := idx.rows.filter (fun s => s.bftIrreversibleBlocknum < n))
      (fun s => decide (s.prev = i))
    rw [liftable_liftChildren, liftable]
    simp only [liftChildren, children, length_map]
    rw [h, filter_filter (l := idx.rows), filter_filter (l := idx.rows), filter_filter (l := idx.rows)]
    simp only [Bool.and_comm]
  child_iff idx i j k _ := isChild_liftChildren k

lemma worklist_liftChildren_rows (n fuel : ℕ) (queue : List BlockId) (idx : Index) :
    ∃ g : BlockState → BlockState, (worklist (liftChildren n) fuel queue idx).rows = idx.rows.map g ∧
      ∀ s, g s = s ∨ s.bftIrreversibleBlocknum < n ∧ g s = s.setBft n := by
  refine worklist_induction (P := fun idx' : Index => ∃ g : BlockState → BlockState, idx'.rows = idx.rows.map g ∧
      ∀ s, g s = s ∨ s.bftIrreversibleBlocknum < n ∧ g s = s.setBft n) ?_ fuel queue
    ⟨fun s => s, (map_id _).symm, fun s => .inl rfl⟩
  rintro idx' i ⟨g, hg, hs⟩
  refine ⟨raise n i ∘ g, ?_, ?_⟩
  · rw [liftChildren_rows, hg, map_map]
  · intro s
    rcases hs s with he | ⟨hlt, he⟩
    · rw [Function.comp_apply, he, raise]
      split_ifs with h
      · exact .inr ⟨h.2, rfl⟩
      · exact .inl rfl
    · refine .inr ⟨hlt, ?_⟩
      rw [Function.comp_apply, he, raise, if_neg]
      exact fun h => lt_irrefl n h.2

lemma mem_confirmed_of_lt (hs : s ∈ (idx.confirmed b).rows) (hlt : s.bftIrreversibleBlocknum < b.blockNum) :
    s ∈ idx.rows ∧ s.id ≠ b.id := by
  obtain ⟨t, ht, he⟩ := (mem_modify _).mp hs
  split_ifs at he with hid
  · rw [← he] at hlt
    exact absurd hlt (lt_irrefl _)
  · exact he ▸ ⟨ht, hid⟩

lemma mem_confirmed (hs : s ∈ idx.rows) (hne : s.id ≠ b.id) : s ∈ (idx.confirmed b).rows :=
  (mem_modify _).mpr ⟨s, hs, if_neg hne⟩

lemma Lifted.of_reaches (h : Reaches (liftable b.blockNum) IsChild (idx.confirmed b) [b.id] j) : Lifted idx b j := by
  induction h with
  | start hi hj hc =>
    obtain ⟨s, hs, hlt, rfl⟩ := mem_liftable.mp hj
    have hp := (isChild_iff hs).mp hc
    rw [mem_singleton.mp hi] at hp
    exact .child (mem_confirmed_of_lt hs hlt).1 hlt (hp ▸ .self)
  | step _ hj hc ih =>
    obtain ⟨s, hs, hlt, rfl⟩ := mem_liftable.mp hj
    obtain rfl := (isChild_iff hs).mp hc
    exact .child (mem_confirmed_of_lt hs hlt).1 hlt ih

lemma Lifted.reaches (h : Lifted idx b j) :
    j = b.id ∨ Reaches (liftable b.blockNum) IsChild (idx.confirmed b) [b.id] j := by
  induction h with
  | self => exact .inl rfl
  | @child s hs hlt _ ih =>
    by_cases hne : s.id = b.id
    · exact .inl hne
    · have hs' := mem_confirmed hs hne
      have hj := mem_liftable.mpr ⟨s, hs', hlt, rfl⟩
      rcases ih with hp | hr
      · exact .inr (.start (mem_singleton.mpr hp) hj ((isChild_iff hs').mpr rfl))
      · exact .inr (.step hr hj ((isChild_iff hs').mpr rfl))

lemma confirmed_fuel (idx : Index) (b : BlockState) :
    [b.id].length + (liftable b.blockNum (idx.confirmed b)).length ≤ idx.rows.length + 1 := by
  have := length_filter_le (fun s : BlockState => decide (s.bftIrreversibleBlocknum < b.blockNum))
    (idx.confirmed b).rows
  have hlen : (idx.confirmed b).rows.length = idx.rows.length := length_map _
  simp only [liftable, length_map, length_singleton]
  omega

lemma setBftIrreversible_rows (idx : Index) (b : BlockState) :
    ∃ g : BlockState → BlockState, (idx.setBftIrreversible b).rows = idx.rows.map g ∧
      ∀ s ∈ idx.rows, Lifted idx b s.id ∧ g s = s.setBft b.blockNum ∨ ¬ Lifted idx b s.id ∧ g s = s := by
  obtain ⟨g, hg, hcases⟩ := worklist_liftChildren_rows b.blockNum (idx.rows.length + 1) [b.id] (idx.confirmed b)
  refine ⟨fun s => g (if s.id = b.id then s.setBft b.blockNum else s), ?_, ?_⟩
  · rw [setBftIrreversible, hg, confirmed, modify_rows, mapRow, map_map]
    rfl
  intro s hs
  by_cases hid : s.id = b.id
  · simp only [hid, if_true]
    refine .inl ⟨.self, ?_⟩
    rcases hcases (s.setBft b.blockNum) with he | ⟨hlt, _⟩
    · exact he
    · exact absurd hlt (lt_irrefl _)
  · simp only [hid, if_false]
    have hs' := mem_confirmed hs hid
    have hfinal : g s ∈ (worklist (liftChildren b.blockNum) (idx.rows.length + 1) [b.id] (idx.confirmed b)).rows :=
      hg ▸ mem_map_of_mem hs'
    have hmem := (liftChildren_takes b.blockNum).mem_worklist (j := s.id) (confirmed_fuel idx b)
    by_cases hl : Lifted idx b s.id
    · refine .inl ⟨hl, ?_⟩
      rcases hl.reaches with he | hr
      · exact absurd he hid
      · have hlt := (liftable_iff hs').mp hr.mem
        rcases hcases s with he | ⟨_, he⟩
        · rw [he] at hfinal
          exact absurd hr (hmem.mp ((liftable_iff hfinal).mpr hlt)).2
        · exact he
    · refine .inr ⟨hl, ?_⟩
      rcases hcases s with he | ⟨hlt, he⟩
      · exact he
      · have hkept := hmem.mpr ⟨(liftable_iff hs').mpr hlt, fun hr => hl (.of_reaches hr)⟩
        rw [he] at hfinal
        exact absurd ((liftable_iff hfinal).mp hkept) (lt_irrefl _)

lemma Lifted.bft_lt {b0 : BlockState} (hb : b0 ∈ idx.rows) (hid : b0.id = b.id)
    (hlt : b0.bftIrreversibleBlocknum < b.blockNum) (hs : s ∈ idx.rows) (h : Lifted idx b s.id) :
    s.bftIrreversibleBlocknum < b.blockNum := by
  generalize hi : s.id = i at h
  cases h with
  | self => rwa [eq_of_id hs hb (hi.trans hid.symm)]
  | child ht hlt' _ => rwa [eq_of_id hs ht hi]

end

end Index

end XosChain.Fork
