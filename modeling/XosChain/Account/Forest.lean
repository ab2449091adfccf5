import XosChain.Account.Effects
import XosChain.Lib.Ancestors

namespace XosChain

open Lib ResourceLimits FlatMap Option Config

namespace Db

def parentOf (db : Db) (id : ℕ) : Option ℕ :=
  (db.permissions.find? id).bind (fun p => if p.parent = 0 then none else some p.parent)

def IsAncestor (db : Db) (ancestor id : ℕ) : Prop := Relation.ReflTransGen (Edge db.parentOf) id ancestor

structure Keyed (db : Db) : Prop where
  reserved : db.permissions.find? 0 = some {}
  below : ∀ i p, db.permissions.find? i = some p → i < db.nextPermissionId
  unique : ∀ i j p q, db.permissions.find? i = some p → db.permissions.find? j = some q → p.owner = q.owner →
    p.name = q.name → i = j

structure Forest (db : Db) : Prop extends Keyed db where
  owned : ∀ i p, i ≠ 0 → db.permissions.find? i = some p → db.accounts.contains p.owner = true ∧ p.name ≠ 0
  root : ∀ i p, i ≠ 0 → db.permissions.find? i = some p → (p.parent = 0 ↔ p.name = ownerName)
  parent : ∀ i p, db.permissions.find? i = some p → p.parent ≠ 0 →
    p.parent < i ∧ ∃ q, db.permissions.find? p.parent = some q ∧ q.owner = p.owner
  named : db.accounts.contains 0 = false

def Has (db : Db) (account : AccountName) (name : PermissionName) : Prop :=
  ∃ i p, db.permissions.find? i = some p ∧ p.owner = account ∧ p.name = name

def Standard (db : Db) : Prop :=
  ∀ a, db.accounts.contains a = true → db.Has a ownerName ∧ db.Has a activeName

section

variable {db db' : Db} {account : AccountName} {name : PermissionName} {i : ℕ} {p : PermissionObject} {e : Permission}

variable {j : ℕ} {auth : Authority} {time : ℕ} {q : PermissionObject}

lemma parentOf_eq_some :
    db.parentOf i = some j ↔ ∃ p, db.permissions.find? i = some p ∧ p.parent = j ∧ j ≠ 0 := by
  rw [parentOf]
  cases db.permissions.find? i with
  | none => simp
  | some p =>
    by_cases hp : p.parent = 0
    · simp only [bind_some, hp, if_true, reduceCtorEq, some.injEq, exists_eq_left', false_iff, not_and,
        not_not]
      exact fun h => h.symm
    · simp only [bind_some, hp, if_false, some.injEq, exists_eq_left']
      exact ⟨fun h => ⟨h, h ▸ hp⟩, fun h => h.1⟩

lemma has_iff : db.Has account name ↔ (db.findOwned account name).isSome := by
  rw [← not_iff_not, not_isSome_iff_eq_none, findOwned_none]
  simp [Has]

section

variable (hp : db.permissions.find? i = some p)

include hp

lemma Forest.ne_zero (h : Forest db) (ha : db.accounts.contains p.owner = true) : i ≠ 0 := by
  rintro rfl
  rw [h.reserved] at hp
  cases hp
  simp [h.named] at ha

lemma Keyed.findOwned (h : Keyed db) (ho : p.owner = account) (hn : p.name = name) :
    db.findOwned account name = some (i, p) := by
  cases hf : db.findOwned account name with
  | none => exact absurd ⟨ho, hn⟩ (findOwned_none.mp hf i p hp)
  | some e =>
    obtain ⟨he, heo, hen⟩ := findOwned_some hf
    have hi := h.unique e.1 i e.2 p he hp (heo.trans ho.symm) (hen.trans hn.symm)
    rw [hi, hp] at he
    rw [← hi, some.inj he]

lemma Keyed.ne_zero_of_owner (h : Keyed db) (ho : p.owner ≠ 0) : i ≠ 0 := by
  rintro rfl
  rw [h.reserved] at hp
  cases hp
  exact ho rfl

end

lemma Keyed.congr (h : Keyed db) (hp : db'.permissions = db.permissions)
    (hn : db'.nextPermissionId = db.nextPermissionId) : Keyed db' := by
  constructor
  · rw [hp]
    exact h.reserved
  · rw [hp, hn]
    exact h.below
  · rw [hp]
    exact h.unique

section

variable (hp : db'.permissions = db.permissions) (ha : ∀ a, db'.accounts.contains a = db.accounts.contains a)

include hp ha

lemma Forest.congr (h : Forest db) (hn : db'.nextPermissionId = db.nextPermissionId) :
    Forest db' := by
  refine ⟨h.toKeyed.congr hp hn, ?_, ?_, ?_, ?_⟩
  · intro i p hi hf
    rw [hp] at hf
    rw [ha]
    exact h.owned i p hi hf
  · rw [hp]
    exact h.root
  · rw [hp]
    exact h.parent
  · rw [ha]
    exact h.named

lemma Standard.congr (h : Standard db) : Standard db' := by
  intro a hc
  rw [ha] at hc
  simpa only [Has, hp] using h a hc

end

lemma contains_set_accounts (a : AccountObject) (b : AccountName) (h : db.accounts.contains account = true) :
    (db.accounts.set account a).contains b = db.accounts.contains b := by
  by_cases hb : account = b
  · subst hb
    rw [h, contains, find?_set_self, isSome_some]
  · rw [contains, find?_set_of_ne _ _ hb, contains]

section

variable (he : db.permissions.find? e.1 = some e.2)

include he

lemma find?_modifyPermission (h : (db.modifyPermission e auth time).permissions.find? i = some q) :
    ∃ p, db.permissions.find? i = some p ∧ q.parent = p.parent ∧ q.owner = p.owner ∧ q.name = p.name := by
  by_cases hi : e.1 = i
  · subst hi
    simp only [modifyPermission, find?_set_self, some.injEq] at h
    exact ⟨e.2, he, by simp [← h]⟩
  · simp only [modifyPermission, find?_set_of_ne _ _ hi] at h
    exact ⟨q, h, rfl, rfl, rfl⟩

lemma find?_of_modifyPermission (h : db.permissions.find? i = some p) :
    ∃ q, (db.modifyPermission e auth time).permissions.find? i = some q ∧ q.parent = p.parent ∧ q.owner = p.owner ∧
      q.name = p.name := by
  by_cases hi : e.1 = i
  · subst hi
    obtain rfl := some.inj (he.symm.trans h)
    exact ⟨_, find?_set_self _ _ _, rfl, rfl, rfl⟩
  · exact ⟨p, (find?_set_of_ne _ _ hi).trans h, rfl, rfl, rfl⟩

lemma Keyed.modify (h : Keyed db) (hz : e.1 ≠ 0) : Keyed (db.modifyPermission e auth time) := by
  constructor
  · exact (find?_set_of_ne _ _ hz).trans h.reserved
  · intro i q hq
    obtain ⟨p, hp, -⟩ := find?_modifyPermission he hq
    exact h.below i p hp
  · intro i j q q' hq hq' ho hn
    obtain ⟨p, hp, -, hpo, hpn⟩ := find?_modifyPermission he hq
    obtain ⟨p', hp', -, hpo', hpn'⟩ := find?_modifyPermission he hq'
    exact h.unique i j p p' hp hp' (by rw [← hpo, ← hpo', ho]) (by rw [← hpn, ← hpn', hn])

lemma Forest.modify (h : Forest db) (hz : e.1 ≠ 0) : Forest (db.modifyPermission e auth time) := by
  refine ⟨h.toKeyed.modify he hz, ?_, ?_, ?_, h.named⟩
  · intro i q hi hq
    obtain ⟨p, hp, -, ho, hn⟩ := find?_modifyPermission he hq
    rw [ho, hn]
    exact h.owned i p hi hp
  · intro i q hi hq
    obtain ⟨p, hp, hpp, -, hn⟩ := find?_modifyPermission he hq
    rw [hpp, hn]
    exact h.root i p hi hp
  · intro i q hq hqz
    obtain ⟨p, hp, hpp, ho, -⟩ := find?_modifyPermission he hq
    rw [hpp] at hqz
    obtain ⟨hlt, r, hr, hro⟩ := h.parent i p hp hqz
    obtain ⟨r', hr', -, hro', -⟩ := find?_of_modifyPermission he hr
    rw [hpp, ho]
    exact ⟨hlt, r', hr', hro'.trans hro⟩

lemma Has.modify (h : db.Has account name) :
    (db.modifyPermission e auth time).Has account name := by
  obtain ⟨i, p, hp, ho, hn⟩ := h
  obtain ⟨q, hq, -, hqo, hqn⟩ := find?_of_modifyPermission he hp
  exact ⟨i, q, hq, hqo.trans ho, hqn.trans hn⟩

end

structure Fits (db : Db) (p : PermissionObject) : Prop where
  account : db.accounts.contains p.owner = true
  named : p.name ≠ 0
  fresh : db.findOwned p.owner p.name = none
  root : p.parent = 0 ↔ p.name = ownerName
  parent : p.parent ≠ 0 → ∃ q, db.permissions.find? p.parent = some q ∧ q.owner = p.owner

lemma find?_addPermission (h : (db.addPermission p).permissions.find? i = some q) :
    (i = db.nextPermissionId ∧ q = p) ∨ db.permissions.find? i = some q :=
  (find?_set_some h).imp (fun h => ⟨h.1.symm, h.2.symm⟩) And.right

lemma Keyed.find?_add (h : Keyed db) (hq : db.permissions.find? i = some q) :
    (db.addPermission p).permissions.find? i = some q := by
  have hi : db.nextPermissionId ≠ i := (h.below i q hq).ne'
  simpa only [addPermission, find?_set_of_ne _ _ hi] using hq

lemma Keyed.add (h : Keyed db) (hf : db.findOwned p.owner p.name = none) : Keyed (db.addPermission p) := by
  constructor
  · exact h.find?_add h.reserved
  · exact forall_set (fun i q hq => (h.below i q hq).trans (Nat.lt_succ_self _)) (Nat.lt_succ_self _)
  · intro i j q r hq hr ho hn
    rcases find?_addPermission hq with ⟨rfl, rfl⟩ | hq' <;> rcases find?_addPermission hr with ⟨rfl, rfl⟩ | hr'
    · rfl
    · exact absurd ⟨ho.symm, hn.symm⟩ (findOwned_none.mp hf j r hr')
    · exact absurd ⟨ho, hn⟩ (findOwned_none.mp hf i q hq')
    · exact h.unique i j q r hq' hr' ho hn

lemma Forest.add (h : Forest db) (hp : db.Fits p) : Forest (db.addPermission p) := by
  refine ⟨h.toKeyed.add hp.fresh, ?_, ?_, ?_, h.named⟩
  · intro i q hi hq
    rcases find?_addPermission hq with ⟨rfl, rfl⟩ | hq
    · exact ⟨hp.account, hp.named⟩
    · exact h.owned i q hi hq
  · intro i q hi hq
    rcases find?_addPermission hq with ⟨rfl, rfl⟩ | hq
    · exact hp.root
    · exact h.root i q hi hq
  · intro i q hq hz
    rcases find?_addPermission hq with ⟨rfl, rfl⟩ | hq
    · obtain ⟨r, hr, ho⟩ := hp.parent hz
      exact ⟨h.below _ r hr, r, h.find?_add hr, ho⟩
    · obtain ⟨hlt, r, hr, ho⟩ := h.parent i q hq hz
      exact ⟨hlt, r, h.find?_add hr, ho⟩

lemma Forest.has_add (h : Forest db) (hn : db.Has account name) : (db.addPermission p).Has account name := by
  obtain ⟨i, q, hq, hr⟩ := hn
  exact ⟨i, q, h.find?_add hq, hr⟩

lemma Forest.has_added (db : Db) (p : PermissionObject) : (db.addPermission p).Has p.owner p.name :=
  ⟨db.nextPermissionId, p, find?_set_self _ _ _, rfl, rfl⟩

lemma Keyed.erase (h : Keyed db) (hz : j ≠ 0) : Keyed { db with permissions := db.permissions.erase j } := by
  constructor
  · exact (find?_erase_of_ne _ hz).trans h.reserved
  · exact forall_erase h.below
  · exact fun i k p q hp hq => h.unique i k p q (find?_erase_some hp).2 (find?_erase_some hq).2

lemma Forest.erase (h : Forest db) (hz : j ≠ 0)
    (hc : ∀ i q, db.permissions.find? i = some q → q.parent ≠ j) :
    Forest { db with permissions := db.permissions.erase j } := by
  refine ⟨h.toKeyed.erase hz, ?_, ?_, ?_, h.named⟩
  · exact fun i p hi hp => h.owned i p hi (find?_erase_some hp).2
  · exact fun i p hi hp => h.root i p hi (find?_erase_some hp).2
  · intro i p hp hpz
    obtain ⟨-, hp⟩ := find?_erase_some hp
    obtain ⟨hlt, q, hq, ho⟩ := h.parent i p hp hpz
    exact ⟨hlt, q, (find?_erase_of_ne _ (hc i p hp).symm).trans hq, ho⟩

lemma Has.erase (h : db.Has account name) (he : db.permissions.find? e.1 = some e.2)
    (hn : e.2.owner = account → e.2.name ≠ name) :
    Has { db with permissions := db.permissions.erase e.1 } account name := by
  obtain ⟨i, p, hp, ho, hp'⟩ := h
  have hi : e.1 ≠ i := by
    rintro rfl
    obtain rfl := some.inj (he.symm.trans hp)
    exact hn ho hp'
  exact ⟨i, p, (find?_erase_of_ne _ hi).trans hp, ho, hp'⟩

end

end Db

end XosChain
