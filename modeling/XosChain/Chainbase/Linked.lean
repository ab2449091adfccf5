import XosChain.Chainbase.Machine

namespace XosChain.Chainbase

open Lib List Function

section

variable {ι V : Type} {K : ι → Type} {key : ∀ i, V → K i}

inductive Linked (key : ∀ i, V → K i) : FlatMap ℕ V → ℕ → ℤ → List (UndoState V) → List (Saved V) → Prop
  | nil {rows : FlatMap ℕ V} {nextId : ℕ} {revision : ℤ} : Linked key rows nextId revision [] []
  | cons {rows : FlatMap ℕ V} {nextId : ℕ} {revision : ℤ} {u : UndoState V} {s : Saved V}
      {us : List (UndoState V)} {ss : List (Saved V)} {c : ℕ → Change V} :
      Logged u s.rows rows c → Legal key s.rows s.nextId → u.oldNextId = s.nextId → s.nextId ≤ nextId →
      u.revision = revision → s.revision = revision → Linked key s.rows s.nextId (revision - 1) us ss →
      Linked key rows nextId revision (u :: us) (s :: ss)

structure Records (f : UndoState V → UndoState V) (id : ℕ) (d : Change V) : Prop where
  self : ∀ u c, u.entry id = entryOf c → c.Composable d → (f u).entry id = entryOf (c.merge d)
  other : ∀ u j, id ≠ j → (f u).entry j = u.entry j
  oldNextId : ∀ u, (f u).oldNextId = u.oldNextId
  revision : ∀ u, (f u).revision = u.revision

lemma onModify_records (id : ℕ) (v : V) : Records (·.onModify id v) id (.upd v) where
  self := by
    intro u c h hc
    refine UndoState.onModify_entry_self h v ?_
    rintro x rfl
    exact hc
  other := fun u j h => UndoState.onModify_entry_other h v
  oldNextId := by
    intro u
    simp only [UndoState.onModify]
    split_ifs <;> rfl
  revision := by
    intro u
    simp only [UndoState.onModify]
    split_ifs <;> rfl

lemma onRemove_records (id : ℕ) (v : V) : Records (·.onRemove id v) id (.del v) where
  self := by
    intro u c h hc
    refine UndoState.onRemove_entry_self h v ?_
    rintro x rfl
    exact hc
  other := fun u j h => UndoState.onRemove_entry_other h v
  oldNextId := by
    intro u
    simp only [UndoState.onRemove]
    repeat' split
    all_goals rfl
  revision := by
    intro u
    simp only [UndoState.onRemove]
    repeat' split
    all_goals rfl

lemma onCreate_records (id : ℕ) : Records (V := V) (·.onCreate id) id .new where
  self := by
    intro u c h hc
    cases c with
    | nop => exact UndoState.onCreate_entry_self h
    | new | upd x | del x => exact hc.elim
  other := fun u j h => UndoState.onCreate_entry_other h
  oldNextId := fun _ => rfl
  revision := fun _ => rfl

lemma Change.merge_eq_new {c d : Change V} (h : c.merge d = .new) : c = .new ∨ c = .nop ∧ d = .new := by
  cases c <;> cases d <;> simp_all [Change.merge]

section

variable {u u' : UndoState V} {s : Saved V} {rows rows' : FlatMap ℕ V} {c d : ℕ → Change V}

lemma Logged.composable (h : Logged u s.rows rows c) (hb : Legal key s.rows s.nextId) {i nextId : ℕ}
    {x : Option V} {e : Change V} (hv : e.Valid (rows.find? i) x) (hf : e = .new → nextId ≤ i)
    (hle : s.nextId ≤ nextId) : (c i).Composable e := by
  refine (h.valid i).composable hv ?_
  intro y hc he
  have hbase := h.valid i
  rw [hc] at hbase
  have hlt := hb.below i y hbase.1
  have hge := hf he
  omega

lemma Logged.compose (h : Logged u s.rows rows c) (hb : Legal key s.rows s.nextId) (ho : u.oldNextId = s.nextId)
    {nextId : ℕ} (hle : s.nextId ≤ nextId) (hd : ∀ i, (d i).Valid (rows.find? i) (rows'.find? i))
    (hf : ∀ i, d i = .new → nextId ≤ i)
    (he : ∀ i, (c i).Composable (d i) → u'.entry i = entryOf ((c i).merge (d i))) (ho' : u'.oldNextId = u.oldNextId) :
    Logged u' s.rows rows' (fun i => (c i).merge (d i)) where
  entry := fun i => he i (h.composable hb (hd i) (hf i) hle)
  valid := fun i => (h.valid i).merge (hd i) (h.composable hb (hd i) (hf i) hle)
  fresh := by
    intro i hi
    rcases Change.merge_eq_new hi with hc | ⟨_, hn⟩
    · rw [ho']
      exact h.fresh i hc
    · have hge := hf i hn
      omega

end

section

variable {rows rows' : FlatMap ℕ V} {nextId nextId' : ℕ} {revision : ℤ} {us : List (UndoState V)}
  {ss : List (Saved V)}

lemma Linked.record {g : GenericIndex V} (h : Linked key rows nextId revision g.stack ss)
    {f : UndoState V → UndoState V} {id : ℕ} {d : Change V} (hf : Records f id d)
    (hd : d.Valid (rows.find? id) (rows'.find? id)) (ho : ∀ j, id ≠ j → rows'.find? j = rows.find? j)
    (hn : d = .new → nextId ≤ id) (hle : nextId ≤ nextId') :
    Linked key rows' nextId' revision (GenericIndex.onTop f g).stack ss := by
  rw [GenericIndex.onTop]
  cases hs : g.stack with
  | nil =>
    rw [hs] at h ⊢
    cases h
    exact .nil
  | cons u us =>
    rw [hs] at h
    cases h with
    | cons hlog hlegal hold hnext hru hrs hrest =>
      rename_i s ss c
      have hcomp : Logged (f u) s.rows rows' (fun i => (c i).merge (update (fun _ => Change.nop) id d i)) := by
        refine hlog.compose hlegal hold hnext ?_ ?_ ?_ (hf.oldNextId u)
        · intro i
          by_cases hi : id = i
          · subst hi
            rwa [update_self]
          · rw [update_of_ne (Ne.symm hi), ho i hi]
            rfl
        · intro i
          by_cases hi : id = i
          · subst hi
            rwa [update_self]
          · rw [update_of_ne (Ne.symm hi)]
            intro hnew
            cases hnew
        · intro i
          by_cases hi : id = i
          · subst hi
            rw [update_self]
            exact hf.self u (c id) (hlog.entry id)
          · rw [update_of_ne (Ne.symm hi), Change.merge_nop, hf.other u i hi]
            exact fun _ => hlog.entry i
      exact .cons hcomp hlegal ((hf.oldNextId u).trans hold) (hnext.trans hle) ((hf.revision u).trans hru) hrs hrest

lemma Linked.squash {u v : UndoState V} {s t : Saved V}
    (h : Linked key rows nextId revision (u :: v :: us) (s :: t :: ss)) :
    Linked key rows nextId (revision - 1) (v.merge u :: us) (t :: ss) := by
  cases h with
  | cons hlog hlegal hold hnext hru hrs hrest =>
    cases hrest with
    | cons hlog' hlegal' hold' hnext' hru' hrs' hrest' =>
      refine .cons (hlog'.compose hlegal' hold' hnext' hlog.valid ?_ ?_ (UndoState.merge_oldNextId v u)) hlegal'
        ((UndoState.merge_oldNextId v u).trans hold') (hnext'.trans hnext) ((UndoState.merge_revision v u).trans hru') hrs' hrest'
      · intro i hi
        rw [← hold]
        exact hlog.fresh i hi
      · intro i hc
        exact UndoState.merge_entry (hlog'.entry i) (hlog.entry i) hc

lemma rdropWhile_cons {α : Type} (p : α → Bool) (a : α) (l : List α) :
    (a :: l).rdropWhile p = if l.rdropWhile p = [] ∧ p a then [] else a :: l.rdropWhile p := by
  simp only [List.rdropWhile, reverse_cons, dropWhile_append, reverse_eq_nil_iff]
  cases hd : l.reverse.dropWhile p with
  | nil => cases hp : p a <;> simp [hp]
  | cons b m => simp

lemma Linked.commit (h : Linked key rows nextId revision us ss) (r : ℤ) :
    Linked key rows nextId revision (us.rdropWhile (fun u => decide (u.revision ≤ r)))
      (ss.rdropWhile (fun s => decide (s.revision ≤ r))) := by
  induction h with
  | nil => exact .nil
  | cons hlog hlegal hold hnext hru hrs hrest ih =>
    rename_i rows nextId rev u s us ss c
    rw [rdropWhile_cons, rdropWhile_cons, hru, hrs]
    generalize hus : us.rdropWhile (fun u => decide (u.revision ≤ r)) = us' at ih ⊢
    generalize hss : ss.rdropWhile (fun s => decide (s.revision ≤ r)) = ss' at ih ⊢
    cases ih with
    | nil =>
      by_cases hr : decide (rev ≤ r) = true
      · rw [if_pos ⟨rfl, hr⟩, if_pos ⟨rfl, hr⟩]
        exact .nil
      · rw [if_neg (fun hc => hr hc.2), if_neg (fun hc => hr hc.2)]
        exact .cons hlog hlegal hold hnext hru hrs .nil
    | cons hlog' hlegal' hold' hnext' hru' hrs' hrest' =>
      simp only [cons_ne_nil, false_and, if_false]
      exact .cons hlog hlegal hold hnext hru hrs (.cons hlog' hlegal' hold' hnext' hru' hrs' hrest')

lemma Linked.revisions (h : Linked key rows nextId revision us ss) :
    us.map UndoState.revision = ss.map Saved.revision := by
  induction h with
  | nil => rfl
  | cons _ _ _ _ hru hrs _ ih => rw [map_cons, map_cons, hru, hrs, ih]

end

end

end XosChain.Chainbase
