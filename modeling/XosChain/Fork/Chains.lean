import XosChain.Fork.Pruning

namespace XosChain.Fork

open Lib Header List

namespace Index

def climbTo (idx : Index) (level : ℕ) : ℕ → BlockState → List BlockState → Option (List BlockState × BlockState)
  | 0, _, _ => none
  | fuel + 1, b, branch =>
    if b.blockNum > level then (idx.find? b.prev).bind fun p => climbTo idx level fuel p (branch ++ [b])
    else some (branch, b)

def climbBoth (idx : Index) :
    ℕ → BlockState → BlockState → List BlockState → List BlockState → Option (List BlockState × List BlockState)
  | 0, _, _, _, _ => none
  | fuel + 1, b, t, first, second =>
    if b.prev ≠ t.prev then
      (idx.find? b.prev).bind fun b' => (idx.find? t.prev).bind fun t' =>
        climbBoth idx fuel b' t' (first ++ [b]) (second ++ [t])
    else some (first ++ [b], second ++ [t])

def fetchBranchFrom (idx : Index) (first second : BlockId) : Option (List BlockState × List BlockState) := do
  let b ← idx.find? first
  let t ← idx.find? second
  let (firstBranch, b) ← idx.climbTo t.blockNum (b.blockNum + 1) b []
  let (secondBranch, t) ← idx.climbTo b.blockNum (t.blockNum + 1) t []
  idx.climbBoth (b.blockNum + 1) b t firstBranch secondBranch

inductive ChainTo (idx : Index) : BlockId → List BlockId → Prop
  | nil {id : BlockId} : id ∉ idx.ids → ChainTo idx id []
  | cons {s : BlockState} {l : List BlockId} : s ∈ idx.rows → ChainTo idx s.prev l → ChainTo idx s.id (s.id :: l)

structure Tree (base : BlockId) (num : ℕ) (idx : Index) : Prop where
  rooted : idx.Rooted base num
  base_not_mem : base ∉ idx.ids

section

variable {idx idx' : Index} {base id x : BlockId} {num : ℕ} {s t b : BlockState} {l l' : List BlockId}

lemma mem_ids_of_mem (hs : s ∈ idx.rows) : s.id ∈ idx.ids := mem_ids.mpr ⟨s, hs, rfl⟩

lemma SameShape.ids_eq (h : SameShape idx idx') : idx'.ids = idx.ids := by
  obtain ⟨g, he, hg⟩ := h
  rw [ids, ids, he, map_map]
  apply map_congr_left
  intro s hs
  exact (hg s hs).1

lemma SameShape.symm (h : SameShape idx idx') : SameShape idx' idx := by
  obtain ⟨g, he, hg⟩ := h
  have hback : ∀ s ∈ idx.rows, (idx.find? (g s).id).getD (g s) = s := by
    intro s hs
    rw [(hg s hs).1, find?_eq_some.mpr ⟨hs, rfl⟩, Option.getD_some]
  refine ⟨fun t => (idx.find? t.id).getD t, ?_, ?_⟩
  · rw [he, map_map]
    exact (map_congr_left hback).trans (map_id _) |>.symm
  · intro t ht
    rw [he] at ht
    obtain ⟨s, hs, rfl⟩ := mem_map.mp ht
    obtain ⟨hid, hprev, hnum⟩ := hg s hs
    simp only [hback s hs]
    exact ⟨hid.symm, hprev.symm, hnum.symm⟩

lemma Descends.sameShape (hs : SameShape idx idx') (h : Descends idx x id) : Descends idx' x id := by
  induction h with
  | self => exact .self
  | child hmem _ ih =>
    obtain ⟨t, ht, hid, hprev, _⟩ := hs.mem hmem
    exact hid ▸ .child ht (hprev ▸ ih)

lemma Tree.sameShape (h : Tree base num idx) (hs : SameShape idx idx') : Tree base num idx' :=
  ⟨h.rooted.sameShape hs, hs.ids_eq ▸ h.base_not_mem⟩

lemma removeBranch_ids_iff (i : BlockId) : i ∈ (idx.removeBranch x).ids ↔ i ∈ idx.ids ∧ ¬ Descends idx x i := by
  constructor
  · intro h
    obtain ⟨s, hs, rfl⟩ := mem_ids.mp h
    obtain ⟨hs, hd⟩ := mem_removeBranch.mp hs
    exact ⟨mem_ids_of_mem hs, hd⟩
  · rintro ⟨h, hd⟩
    obtain ⟨s, hs, rfl⟩ := mem_ids.mp h
    exact mem_ids_of_mem (mem_removeBranch.mpr ⟨hs, hd⟩)

lemma Tree.removeBranch (h : Tree base num idx) (x : BlockId) : Tree base num (idx.removeBranch x) where
  rooted := h.rooted.parentsKept (idx.removeBranch_parentsKept x)
  base_not_mem hb := h.base_not_mem ((removeBranch_ids_iff base).mp hb).1

lemma Tree.parent (h : Tree base num idx) (hs : s ∈ idx.rows) (hn : num < s.blockNum) :
    ∃ p, idx.find? s.prev = some p ∧ s.blockNum = p.blockNum + 1 := by
  rcases h.rooted s hs with ⟨_, he⟩ | ⟨p, hp, hid, he⟩
  · omega
  · exact ⟨p, find?_eq_some.mpr ⟨hp, hid⟩, he⟩

lemma Tree.exists_chain (h : Tree base num idx) (hs : s ∈ idx.rows) : ∃ l, ChainTo idx s.id l := by
  generalize hn : s.blockNum = n
  induction n using Nat.strong_induction_on generalizing s with
  | _ n ih =>
    rcases h.rooted s hs with ⟨hp, _⟩ | ⟨p, hp, hid, he⟩
    · exact ⟨[s.id], .cons hs (.nil (hp ▸ h.base_not_mem))⟩
    · obtain ⟨l, hl⟩ := ih p.blockNum (by omega) hp rfl
      exact ⟨s.id :: l, .cons hs (hid ▸ hl)⟩

lemma ChainTo.eq_cons (h : ChainTo idx s.id l) (hs : s ∈ idx.rows) : ∃ r, l = s.id :: r ∧ ChainTo idx s.prev r := by
  generalize hid : s.id = i at h
  cases h with
  | nil hn => exact absurd (hid ▸ mem_ids_of_mem hs) hn
  | @cons t r ht hr =>
    obtain rfl := eq_of_id hs ht hid
    exact ⟨r, rfl, hr⟩

lemma ChainTo.unique (h : ChainTo idx id l) (h' : ChainTo idx id l') : l = l' := by
  induction h generalizing l' with
  | nil hn =>
    cases h' with
    | nil _ => rfl
    | cons hs _ => exact absurd (mem_ids_of_mem hs) hn
  | cons hs _ ih =>
    obtain ⟨r, rfl, hr⟩ := h'.eq_cons hs
    rw [ih hr]

lemma ChainTo.ne_nil (h : ChainTo idx id l) (hid : id ∈ idx.ids) : l ≠ [] := by
  cases h with
  | nil hn => exact absurd hid hn
  | cons _ _ => exact cons_ne_nil _ _

lemma ChainTo.not_mem_of_nil (h : ChainTo idx id []) : id ∉ idx.ids := by
  cases h with
  | nil hn => exact hn

lemma ChainTo.head_eq {i : BlockId} (h : ChainTo idx id (i :: l)) : i = id := by
  cases h
  rfl

lemma ChainTo.mem_ids (h : ChainTo idx id l) (hx : x ∈ l) : x ∈ idx.ids := by
  induction h with
  | nil _ => cases hx
  | cons hs _ ih =>
    rcases mem_cons.mp hx with rfl | hx
    · exact mem_ids_of_mem hs
    · exact ih hx

lemma ChainTo.sameShape (h : ChainTo idx id l) (hs : SameShape idx idx') : ChainTo idx' id l := by
  induction h with
  | nil hn => exact .nil (hs.ids_eq ▸ hn)
  | cons hmem _ ih =>
    obtain ⟨t, ht, hid, hprev, _⟩ := hs.mem hmem
    exact hid ▸ .cons ht (hprev ▸ ih)

lemma ChainTo.blockNum_lt (hr : idx.Rooted base num) (h : ChainTo idx s.prev l) (hb : base ∉ idx.ids) (hs : s ∈ idx.rows)
    (ht : t ∈ idx.rows) (hmem : t.id ∈ l) : t.blockNum < s.blockNum := by
  generalize hp : s.prev = p at h
  induction h generalizing s with
  | nil _ => cases hmem
  | @cons q r hq _ ih =>
    have hlt : q.blockNum < s.blockNum := by
      rcases hr s hs with ⟨hbase, _⟩ | ⟨q', hq', hid, he⟩
      · exact absurd (mem_ids_of_mem hq) (hp ▸ hbase ▸ hb)
      · obtain rfl := eq_of_id hq hq' (hp ▸ hid.symm)
        omega
    rcases mem_cons.mp hmem with he | hmem
    · rwa [eq_of_id ht hq he]
    · exact (ih hq hmem rfl).trans hlt

lemma ChainTo.not_mem_tail (ht : Tree base num idx) {i : BlockId} (h : ChainTo idx id (i :: l)) : i ∉ l := by
  cases h with
  | cons hs hl =>
    intro hmem
    exact lt_irrefl _ (hl.blockNum_lt ht.rooted ht.base_not_mem hs hs hmem)

lemma ChainTo.mem_of_descends (h : ChainTo idx id l) (hx : x ∈ idx.ids) (hd : Descends idx x id) : x ∈ l := by
  induction hd generalizing l with
  | self =>
    cases h with
    | nil hn => exact absurd hx hn
    | cons _ _ => exact mem_cons_self
  | child hs _ ih =>
    obtain ⟨r, rfl, hr⟩ := h.eq_cons hs
    exact mem_cons_of_mem _ (ih hr)

lemma ChainTo.removeBranch (h : ChainTo idx id l) (hx : x ∈ idx.ids) (hmem : x ∉ l) :
    ChainTo (idx.removeBranch x) id l := by
  induction h with
  | nil hn => exact .nil fun hi => hn ((removeBranch_ids_iff _).mp hi).1
  | cons hs hl ih =>
    have hd := fun hd => hmem ((ChainTo.cons hs hl).mem_of_descends hx hd)
    exact .cons (mem_removeBranch.mpr ⟨hs, hd⟩) (ih fun hx => hmem (mem_cons_of_mem _ hx))

lemma ChainTo.of_append {above : List BlockId} (h : ChainTo idx id (above ++ x :: l)) : ChainTo idx x (x :: l) := by
  induction above generalizing id with
  | nil =>
    rw [h.head_eq]
    exact h.head_eq ▸ h
  | cons i above ih =>
    cases h with
    | cons _ hl => exact ih hl

end

def Path (idx : Index) : BlockId → List BlockState → BlockId → Prop
  | start, [], stop => start = stop
  | start, b :: l, stop => b ∈ idx.rows ∧ b.id = start ∧ Path idx b.prev l stop

section

variable {idx : Index} {base start mid stop : BlockId} {num level fuel : ℕ} {b t : BlockState}
  {path path' : List BlockState} {l : List BlockId}

lemma Path.append (h : idx.Path start path mid) (h' : idx.Path mid path' stop) : idx.Path start (path ++ path') stop := by
  induction path generalizing start with
  | nil =>
    rw [show start = mid from h]
    exact h'
  | cons b path ih => exact ⟨h.1, h.2.1, ih h.2.2⟩

lemma Path.chain (h : idx.Path start path stop) (hl : ChainTo idx stop l) :
    ChainTo idx start (path.map (fun s => s.id) ++ l) := by
  induction path generalizing start with
  | nil => exact (show start = stop from h) ▸ hl
  | cons b path ih =>
    obtain ⟨hb, rfl, hp⟩ := h
    exact .cons hb (ih hp)

lemma Path.mem (h : idx.Path start path stop) {x : BlockState} (hx : x ∈ path) : x ∈ idx.rows := by
  induction path generalizing start with
  | nil => cases hx
  | cons b path ih =>
    rcases mem_cons.mp hx with rfl | hx
    · exact h.1
    · exact ih h.2.2 hx

lemma Path.getLast (h : idx.Path start path stop) (hne : path ≠ []) :
    path.getLast?.map (fun s => s.prev) = some stop := by
  induction path generalizing start with
  | nil => exact absurd rfl hne
  | cons b path ih =>
    cases path with
    | nil => exact congrArg some h.2.2
    | cons c path =>
      rw [getLast?_cons_cons]
      exact ih h.2.2 (cons_ne_nil _ _)

lemma climbTo_eq (ht : Tree base num idx) (hb : b ∈ idx.rows) (hl : num ≤ level) (hf : b.blockNum < fuel)
    (branch : List BlockState) : ∃ path top, idx.climbTo level fuel b branch = some (branch ++ path, top) ∧
      idx.Path b.id path top.id ∧ top ∈ idx.rows ∧ top.blockNum = min b.blockNum level := by
  induction fuel generalizing b branch with
  | zero => omega
  | succ fuel ih =>
    rw [climbTo]
    split_ifs with hgt
    · obtain ⟨p, hp, hn⟩ := ht.parent hb (by omega)
      obtain ⟨hmem, hid⟩ := find?_eq_some.mp hp
      obtain ⟨path, top, he, hpath, htop, hnum⟩ := ih hmem (by omega) (branch ++ [b])
      refine ⟨b :: path, top, ?_, ⟨hb, rfl, hid ▸ hpath⟩, htop, by omega⟩
      rw [hp, Option.bind_some, he, append_assoc]
      rfl
    · exact ⟨[], b, by rw [append_nil], rfl, hb, by omega⟩

lemma Tree.num_of_prev (h : Tree base num idx) (hb : b ∈ idx.rows) (ht : t ∈ idx.rows) (hid : t.id = b.prev) :
    b.blockNum = t.blockNum + 1 := by
  rcases h.rooted b hb with ⟨hbase, _⟩ | ⟨p, hp, hpid, he⟩
  · exact absurd (hid.trans hbase ▸ mem_ids_of_mem ht) h.base_not_mem
  · rwa [eq_of_id ht hp (hid.trans hpid.symm)]

lemma Path.descending (ht : Tree base num idx) (h : idx.Path start path stop) :
    path.Pairwise (fun s t => t.blockNum < s.blockNum) := by
  induction path generalizing start with
  | nil => exact .nil
  | cons b path ih =>
    refine pairwise_cons.mpr ⟨?_, ih h.2.2⟩
    obtain ⟨hb, _, hp⟩ := h
    cases path with
    | nil => exact fun t hmem => by cases hmem
    | cons p path =>
      have hn := ht.num_of_prev hb hp.1 hp.2.1
      intro t hmem
      rcases mem_cons.mp hmem with rfl | hmem
      · omega
      · have := (pairwise_cons.mp (ih hp)).1 t hmem
        omega

lemma Path.eq_nil (ht : Tree base num idx) (h : idx.Path b.id path t.id) (hb : b ∈ idx.rows) (htop : t ∈ idx.rows)
    (hn : b.blockNum ≤ t.blockNum) : path = [] := by
  have hext : idx.Path b.id (path ++ [t]) t.prev := h.append ⟨htop, rfl, rfl⟩
  cases path with
  | nil => rfl
  | cons p path =>
    obtain rfl := eq_of_id h.1 hb h.2.1
    have := (pairwise_cons.mp (hext.descending ht)).1 t (mem_append_right _ mem_cons_self)
    omega

inductive Apart : List BlockState → List BlockState → Prop
  | last {b t : BlockState} : b.blockNum = t.blockNum → b.prev = t.prev → Apart [b] [t]
  | step {b t : BlockState} {path path' : List BlockState} : b.blockNum = t.blockNum → b.prev ≠ t.prev →
    Apart path path' → Apart (b :: path) (t :: path')

section

variable (h : Apart path path')

include h

lemma Apart.getLast : ∃ x y, path.getLast? = some x ∧ path'.getLast? = some y ∧
    x.blockNum = y.blockNum ∧ x.prev = y.prev := by
  induction h with
  | last hn hp => exact ⟨_, _, rfl, rfl, hn, hp⟩
  | step _ _ _ ih =>
    obtain ⟨x, y, hx, hy, h⟩ := ih
    exact ⟨x, y, by rw [getLast?_cons, hx]; rfl, by rw [getLast?_cons, hy]; rfl, h⟩

lemma Apart.ne_nil : path ≠ [] ∧ path' ≠ [] := by
  cases h <;> exact ⟨cons_ne_nil _ _, cons_ne_nil _ _⟩

lemma Apart.symm : Apart path' path := by
  induction h with
  | last hn hp => exact .last hn.symm hp.symm
  | step hn hp _ ih => exact .step hn.symm hp.symm ih

lemma Apart.lt_of_forall (hd : path'.Pairwise (fun s t => t.blockNum < s.blockNum)) {n : ℕ}
    (hn : ∀ x ∈ path, x.blockNum < n) {y : BlockState} (hy : y ∈ path') : y.blockNum < n := by
  cases h with
  | last hbt _ =>
    rw [mem_singleton.mp hy, ← hbt]
    exact hn _ mem_cons_self
  | step hbt _ _ =>
    have htop := hbt ▸ hn _ mem_cons_self
    rcases mem_cons.mp hy with rfl | hy
    · exact htop
    · exact ((pairwise_cons.mp hd).1 y hy).trans htop

lemma Apart.eq_last (hd : path.Pairwise (fun s t => t.blockNum < s.blockNum))
    (hd' : path'.Pairwise (fun s t => t.blockNum < s.blockNum)) {x y : BlockState} (hx : x ∈ path) (hy : y ∈ path')
    (hn : x.blockNum = y.blockNum) (hp : x.prev = y.prev) : path.getLast? = some x ∧ path'.getLast? = some y := by
  induction h with
  | last _ _ => rw [mem_singleton.mp hx, mem_singleton.mp hy]; exact ⟨rfl, rfl⟩
  | @step b t path path' hbt hne hap ih =>
    obtain ⟨hb, hd⟩ := pairwise_cons.mp hd
    obtain ⟨ht, hd'⟩ := pairwise_cons.mp hd'
    rcases mem_cons.mp hx with rfl | hx <;> rcases mem_cons.mp hy with rfl | hy
    · exact absurd hp hne
    · have := ht y hy
      omega
    · have := hb x hx
      omega
    · obtain ⟨hlx, hly⟩ := ih hd hd' hx hy
      rw [getLast?_cons, getLast?_cons, hlx, hly]
      exact ⟨rfl, rfl⟩

end

section

variable (ht : Tree base num idx) (hb : b ∈ idx.rows) (htop : t ∈ idx.rows)

include ht hb htop

lemma climbBoth_eq (hnum : b.blockNum = t.blockNum) (hf : b.blockNum < fuel) (first second : List BlockState) :
    ∃ path path' stop,
      idx.climbBoth fuel b t first second = some (first ++ path, second ++ path') ∧
      idx.Path b.id path stop ∧ idx.Path t.id path' stop ∧ Apart path path' := by
  induction fuel generalizing b t first second with
  | zero => omega
  | succ fuel ih =>
    rw [climbBoth]
    split_ifs with hne
    · have hgt : num < b.blockNum := by
        rcases ht.rooted b hb with ⟨hbase, he⟩ | ⟨p, hp, _, he⟩
        · rcases ht.rooted t htop with ⟨hbase', _⟩ | ⟨p, hp, _, he'⟩
          · exact absurd (hbase.trans hbase'.symm) hne
          · have := ht.rooted.num_le hp
            omega
        · have := ht.rooted.num_le hp
          omega
      obtain ⟨p, hp, hn⟩ := ht.parent hb hgt
      obtain ⟨q, hq, hn'⟩ := ht.parent htop (hnum ▸ hgt)
      obtain ⟨hmem, hid⟩ := find?_eq_some.mp hp
      obtain ⟨hmem', hid'⟩ := find?_eq_some.mp hq
      obtain ⟨path, path', stop, he, hpath, hpath', hap⟩ :=
        ih hmem hmem' (by omega) (by omega) (first ++ [b]) (second ++ [t])
      refine ⟨b :: path, t :: path', stop, ?_, ⟨hb, rfl, hid ▸ hpath⟩, ⟨htop, rfl, hid' ▸ hpath'⟩, .step hnum hne hap⟩
      rw [hp, hq, Option.bind_some, Option.bind_some, he, append_assoc, append_assoc]
      rfl
    · exact ⟨[b], [t], b.prev, rfl, ⟨hb, rfl, rfl⟩, ⟨htop, rfl, (not_ne_iff.mp hne).symm⟩,
        .last hnum (not_ne_iff.mp hne)⟩

lemma fetchBranchFrom_apart :
    ∃ above above' path path' stop, idx.fetchBranchFrom b.id t.id = some (above ++ path, above' ++ path') ∧
      idx.Path b.id (above ++ path) stop ∧ idx.Path t.id (above' ++ path') stop ∧ Apart path path' ∧
      (above = [] ∨ above' = []) := by
  have hb' : idx.find? b.id = some b := find?_eq_some.mpr ⟨hb, rfl⟩
  have htop' : idx.find? t.id = some t := find?_eq_some.mpr ⟨htop, rfl⟩
  obtain ⟨path1, b1, he1, hpath1, hb1, hn1⟩ := climbTo_eq ht hb (ht.rooted.num_le htop) (Nat.lt_succ_self _) []
  obtain ⟨path2, b2, he2, hpath2, hb2, hn2⟩ := climbTo_eq ht htop (ht.rooted.num_le hb1) (Nat.lt_succ_self _) []
  obtain ⟨path3, path4, stop, he, hpath3, hpath4, hap⟩ :=
    climbBoth_eq ht hb1 hb2 (by omega) (Nat.lt_succ_self _) path1 path2
  refine ⟨path1, path2, path3, path4, stop, ?_, hpath1.append hpath3, hpath2.append hpath4, hap, ?_⟩
  · simp only [fetchBranchFrom, hb', htop', he1, he2, nil_append, Option.bind_eq_bind, Option.bind_some]
    exact he
  · by_cases hle : b.blockNum ≤ t.blockNum
    · exact .inl (hpath1.eq_nil ht hb hb1 (by omega))
    · exact .inr (hpath2.eq_nil ht htop hb2 (by omega))

lemma fetchBranchFrom_eq :
    ∃ first second stop, idx.fetchBranchFrom b.id t.id = some (first, second) ∧
      (idx.Path b.id first stop ∧ first ≠ []) ∧ idx.Path t.id second stop ∧ second ≠ [] := by
  obtain ⟨above, above', path, path', stop, he, hp, hp', hap, _⟩ := fetchBranchFrom_apart ht hb htop
  exact ⟨_, _, stop, he, ⟨hp, append_ne_nil_of_right_ne_nil _ hap.ne_nil.1⟩, hp',
    append_ne_nil_of_right_ne_nil _ hap.ne_nil.2⟩

end

lemma climbTo_mem (hb : b ∈ idx.rows) {branch : List BlockState} (hbr : ∀ s ∈ branch, s ∈ idx.rows)
    (h : idx.climbTo level fuel b branch = some (path, t)) : (∀ s ∈ path, s ∈ idx.rows) ∧ t ∈ idx.rows := by
  induction fuel generalizing b branch with
  | zero => cases h
  | succ fuel ih =>
    rw [climbTo] at h
    split_ifs at h
    · obtain ⟨p, hp, h⟩ := Option.bind_eq_some_iff.mp h
      refine ih (find?_eq_some.mp hp).1 ?_ h
      intro s hs
      rcases mem_append.mp hs with hs | hs
      · exact hbr s hs
      · rwa [mem_singleton.mp hs]
    · cases h
      exact ⟨hbr, hb⟩

lemma climbBoth_mem (hb : b ∈ idx.rows) (ht : t ∈ idx.rows) {first second : List BlockState}
    (hf : ∀ s ∈ first, s ∈ idx.rows) (hs : ∀ s ∈ second, s ∈ idx.rows)
    (h : idx.climbBoth fuel b t first second = some (path, path')) :
    (∀ s ∈ path, s ∈ idx.rows) ∧ ∀ s ∈ path', s ∈ idx.rows := by
  have hsnoc : ∀ {l : List BlockState} {r : BlockState}, r ∈ idx.rows → (∀ s ∈ l, s ∈ idx.rows) →
      ∀ s ∈ l ++ [r], s ∈ idx.rows := by
    intro l r hr hl s hs
    rcases mem_append.mp hs with hs | hs
    · exact hl s hs
    · rwa [mem_singleton.mp hs]
  induction fuel generalizing b t first second with
  | zero => cases h
  | succ fuel ih =>
    rw [climbBoth] at h
    split_ifs at h
    · obtain ⟨b', hb', h⟩ := Option.bind_eq_some_iff.mp h
      obtain ⟨t', ht', h⟩ := Option.bind_eq_some_iff.mp h
      exact ih (find?_eq_some.mp hb').1 (find?_eq_some.mp ht').1 (hsnoc hb hf) (hsnoc ht hs) h
    · cases h
      exact ⟨hsnoc hb hf, hsnoc ht hs⟩

lemma fetchBranchFrom_mem {first second : BlockId} (h : idx.fetchBranchFrom first second = some (path, path')) :
    (∀ s ∈ path, s ∈ idx.rows) ∧ ∀ s ∈ path', s ∈ idx.rows := by
  obtain ⟨b, hb, h⟩ := Option.bind_eq_some_iff.mp h
  obtain ⟨t, ht, h⟩ := Option.bind_eq_some_iff.mp h
  obtain ⟨⟨firstBranch, b'⟩, hfirst, h⟩ := Option.bind_eq_some_iff.mp h
  obtain ⟨⟨secondBranch, t'⟩, hsecond, h⟩ := Option.bind_eq_some_iff.mp h
  have hnil : ∀ s ∈ ([] : List BlockState), s ∈ idx.rows := fun s hs => by cases hs
  obtain ⟨hf, hb'⟩ := climbTo_mem (find?_eq_some.mp hb).1 hnil hfirst
  obtain ⟨hs, ht'⟩ := climbTo_mem (find?_eq_some.mp ht).1 hnil hsecond
  exact climbBoth_mem hb' ht' hf hs h

end

end Index

end XosChain.Fork
