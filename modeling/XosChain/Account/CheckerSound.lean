import XosChain.Account.Checker
import XosChain.Lib.Threshold

namespace XosChain

open Lib ThresholdSystem PermissionLevel FlatMap

lemma PermissionLevel.key_injective : Function.Injective key := by
  rintro ⟨a, p⟩ ⟨b, q⟩ h
  obtain ⟨rfl, rfl⟩ := Prod.mk.inj (toLex_inj.mp h)
  rfl

def MetaPermission.weight : MetaPermission → ℕ
  | .level p => p.weight
  | .key k => k.weight
  | .wait w => w.weight

namespace AuthorityChecker

def rules (c : AuthorityChecker) : ThresholdSystem PermissionLevel MetaPermission where
  given := {p | p ∈ c.providedPermissions ∨ ⟨p.actor, 0⟩ ∈ c.providedPermissions}
  rule p := (c.permissionToAuthority p).map fun a => (a.threshold, a.metaPermissions)
  weight := MetaPermission.weight
  holds S
    | .wait w => w.waitSec * 1000000 ≤ c.providedDelay
    | .key k => k.key ∈ c.providedKeys
    | .level p => p.permission ∈ S
  mono {_ _ b} hST hb := by
    cases b with
    | level p => exact hST hb
    | key | wait => exact hb

def authorized (c : AuthorityChecker) : Set PermissionLevel := c.rules.derivable

def ActorClosed (S : Set PermissionLevel) : Prop := ∀ p : PermissionLevel, ⟨p.actor, 0⟩ ∈ S → p ∈ S

section

variable {c : AuthorityChecker} {m : Marks} {recurse : Option (Authority → Marks → Bool × Marks)}
  {p : PermissionLevelWeight} {total : ℕ}

lemma visitLevel_satisfied (h : permissionStatusInCache m.cached p.permission = some .permissionSatisfied) :
    c.visitLevel recurse p total m = ((total + p.weight) % 2 ^ 32, m) := by
  simp only [visitLevel, h]

lemma visitLevel_other {status : CacheStatus} (h : permissionStatusInCache m.cached p.permission = some status)
    (hs : status ≠ .permissionSatisfied) : c.visitLevel recurse p total m = (total, m) := by
  cases status with
  | permissionSatisfied => exact absurd rfl hs
  | beingEvaluated | permissionUnsatisfied => simp only [visitLevel, h]

lemma visitLevel_cut (h : permissionStatusInCache m.cached p.permission = none) :
    c.visitLevel none p total m = (total, m) := by
  simp only [visitLevel, h]

lemma visitLevel_missing (h : permissionStatusInCache m.cached p.permission = none)
    (ha : c.permissionToAuthority p.permission = none) : c.visitLevel recurse p total m = (total, m) := by
  cases recurse <;> simp only [visitLevel, h, ha]

def evaluating (m : Marks) (p : PermissionLevel) : Marks := { m with cached := m.cached.set p.key .beingEvaluated }

def concluded (m : Marks) (p : PermissionLevel) (status : CacheStatus) : Marks := { m with cached := m.cached.set p.key status }

lemma visitLevel_eval {f : Authority → Marks → Bool × Marks} {auth : Authority}
    (h : permissionStatusInCache m.cached p.permission = none) (ha : c.permissionToAuthority p.permission = some auth) :
    c.visitLevel (some f) p total m =
      if (f auth (evaluating m p.permission)).1 then
        ((total + p.weight) % 2 ^ 32, concluded (f auth (evaluating m p.permission)).2 p.permission .permissionSatisfied)
      else (total, concluded (f auth (evaluating m p.permission)).2 p.permission .permissionUnsatisfied) := by
  simp only [visitLevel, h, ha]
  rfl

end

section

variable {c : AuthorityChecker} {S : Set PermissionLevel} {m : Marks}
  {recurse : Option (Authority → Marks → Bool × Marks)}

def CacheSound (S : Set PermissionLevel) (cached : PermissionCache) : Prop :=
  ∀ p : PermissionLevel, cached.find? p.key = some .permissionSatisfied → p ∈ S

variable {cached : PermissionCache} {p : PermissionLevel}

lemma CacheSound.set (h : CacheSound S cached) {status : CacheStatus}
    (hp : status = .permissionSatisfied → p ∈ S) : CacheSound S (cached.set p.key status) := by
  intro q hq
  obtain ⟨he, hs⟩ | ⟨-, hq⟩ := find?_set_some hq
  · obtain rfl := key_injective he
    exact hp hs
  · exact h q hq

lemma CacheSound.status (h : CacheSound S cached) (ha : ActorClosed S)
    (hp : permissionStatusInCache cached p = some .permissionSatisfied) : p ∈ S := by
  rw [permissionStatusInCache] at hp
  cases hk : cached.find? p.key with
  | some status =>
    rw [hk] at hp
    exact h p (hk.trans hp)
  | none =>
    rw [hk] at hp
    exact ha p (h ⟨p.actor, 0⟩ hp)

def SoundEval (c : AuthorityChecker) (S : Set PermissionLevel) (f : Authority → Marks → Bool × Marks) : Prop :=
  ∀ a m, CacheSound S m.cached → CacheSound S (f a m).2.cached ∧
    ((f a m).1 = true → a.threshold ≤ weightOf (c.rules.holds S) MetaPermission.weight a.metaPermissions)

lemma add_mod_le {total weight : ℕ} : (total + weight) % 2 ^ 32 ≤ total + weight := Nat.mod_le _ _

section

variable (hS : c.rules.Closed S) (ha : ActorClosed S) (hr : ∀ f ∈ recurse, SoundEval c S f)

include hS ha hr

lemma visitLevel_sound (p : PermissionLevelWeight) (total : ℕ) (hm : CacheSound S m.cached) :
    CacheSound S (c.visitLevel recurse p total m).2.cached ∧
    (p.permission ∈ S → (c.visitLevel recurse p total m).1 ≤ total + p.weight) ∧
    (p.permission ∉ S → (c.visitLevel recurse p total m).1 ≤ total) := by
  have hkeep : CacheSound S m.cached ∧ (p.permission ∈ S → total ≤ total + p.weight) ∧ (p.permission ∉ S → total ≤ total) :=
    ⟨hm, fun _ => Nat.le_add_right _ _, fun _ => le_rfl⟩
  cases hs : permissionStatusInCache m.cached p.permission with
  | some status =>
    by_cases hstatus : status = .permissionSatisfied
    · subst hstatus
      rw [visitLevel_satisfied hs]
      exact ⟨hm, fun _ => add_mod_le, fun h => absurd (hm.status ha hs) h⟩
    · rw [visitLevel_other hs hstatus]
      exact hkeep
  | none =>
    cases hauth : c.permissionToAuthority p.permission with
    | none =>
      rw [visitLevel_missing hs hauth]
      exact hkeep
    | some auth =>
      cases recurse with
      | none =>
        rw [visitLevel_cut hs]
        exact hkeep
      | some f =>
        have hstart : CacheSound S (evaluating m p.permission).cached := hm.set fun h => nomatch h
        obtain ⟨hcache, hsat⟩ := hr f rfl auth _ hstart
        rw [visitLevel_eval hs hauth]
        split_ifs with ht
        · have hmem : p.permission ∈ S :=
            hS.fires ⟨auth.threshold, auth.metaPermissions, congrArg (Option.map _) hauth, hsat ht⟩
          exact ⟨hcache.set fun _ => hmem, fun _ => add_mod_le, fun h => absurd hmem h⟩
        · exact ⟨hcache.set (fun h => nomatch h), hkeep.2⟩

lemma visit_sound (b : MetaPermission) (total : ℕ) (hm : CacheSound S m.cached) :
    CacheSound S (c.visit recurse total m b).2.cached ∧
    (c.rules.holds S b → (c.visit recurse total m b).1 ≤ total + b.weight) ∧
    (¬ c.rules.holds S b → (c.visit recurse total m b).1 ≤ total) := by
  cases b with
  | level p => exact visitLevel_sound hS ha hr p total hm
  | wait w =>
    by_cases hw : w.waitSec * 1000000 ≤ c.providedDelay
    · rw [visit, if_pos hw]
      exact ⟨hm, fun _ => add_mod_le, fun h => absurd hw h⟩
    · rw [visit, if_neg hw]
      exact ⟨hm, fun h => absurd h hw, fun _ => le_rfl⟩
  | key k =>
    by_cases hk : k.key ∈ c.providedKeys
    · rw [visit, if_pos hk]
      exact ⟨hm, fun _ => add_mod_le, fun h => absurd hk h⟩
    · rw [visit, if_neg hk]
      exact ⟨hm, fun h => absurd h hk, fun _ => le_rfl⟩

lemma tally_sound (threshold : ℕ) (l : List MetaPermission) (total : ℕ) (hm : CacheSound S m.cached) :
    CacheSound S (c.tally recurse threshold l total m).2.cached ∧
    ((c.tally recurse threshold l total m).1 = true →
      threshold ≤ total + weightOf (c.rules.holds S) MetaPermission.weight l) := by
  induction l generalizing total m with
  | nil => exact ⟨hm, fun h => nomatch h⟩
  | cons b l ih =>
    obtain ⟨hcache, hpos, hneg⟩ := visit_sound hS ha hr b total hm
    have hstep : (c.visit recurse total m b).1 + weightOf (c.rules.holds S) MetaPermission.weight l ≤
        total + weightOf (c.rules.holds S) MetaPermission.weight (b :: l) := by
      by_cases hb : c.rules.holds S b
      · have hle := hpos hb
        rw [weightOf_cons_of_pos hb]
        omega
      · have hle := hneg hb
        rw [weightOf_cons_of_neg hb]
        omega
    rw [tally]
    split_ifs with ht
    · exact ⟨hcache, fun _ => ht.trans ((Nat.le_add_right _ _).trans hstep)⟩
    · obtain ⟨hc, ht'⟩ := ih (c.visit recurse total m b).1 hcache
      exact ⟨hc, fun h => (ht' h).trans hstep⟩

lemma satisfiedWith_sound :
    SoundEval c S (c.satisfiedWith recurse) := by
  intro a m hm
  obtain ⟨hc, ht⟩ := tally_sound hS ha hr a.threshold a.metaPermissions 0 hm
  rw [satisfiedWith]
  split_ifs with h
  · exact ⟨hc, fun _ => by simpa using ht h⟩
  · exact ⟨hc, fun h' => nomatch h'⟩

end

lemma satisfiedWithin_sound (hS : c.rules.Closed S) (ha : ActorClosed S) (levels : ℕ) :
    SoundEval c S (c.satisfiedWithin levels) := by
  induction levels with
  | zero => exact satisfiedWith_sound hS ha fun f hf => nomatch hf
  | succ levels ih =>
    refine satisfiedWith_sound hS ha ?_
    rintro f ⟨⟩
    exact ih

lemma topEval_sound (hS : c.rules.Closed S) (ha : ActorClosed S) : ∀ f ∈ c.topEval, SoundEval c S f := by
  rw [topEval]
  cases c.recursionDepthLimit with
  | zero => rintro f ⟨⟩
  | succ levels =>
    rintro f ⟨⟩
    exact satisfiedWithin_sound hS ha levels

lemma initialCache_sound (hS : c.rules.Closed S) : CacheSound S c.initialCache := by
  have hmem : ∀ p ∈ c.providedPermissions, p ∈ S := fun p hp => hS.given (.inl hp)
  rw [initialCache]
  generalize c.providedPermissions = l at hmem
  have hempty : CacheSound S empty := fun p hp => nomatch hp
  generalize (empty : PermissionCache) = cached at hempty
  induction l generalizing cached with
  | nil => exact hempty
  | cons p l ih =>
    rw [List.foldl_cons]
    exact ih (fun q hq => hmem q (List.mem_cons_of_mem p hq)) _ (hempty.set fun _ => hmem p List.mem_cons_self)

end

inductive Request where
  | own (level : PermissionLevel) (overrideDelay : Option ℕ)
  | shared (level : PermissionLevel)

namespace Request

def level : Request → PermissionLevel
  | .own level _ => level
  | .shared level => level

def checker (c : AuthorityChecker) : Request → AuthorityChecker
  | .own _ delay => { c with providedDelay := delay.getD c.providedDelay }
  | .shared _ => c

end Request

def serve (c : AuthorityChecker) (m : Marks) (r : Request) : Bool × Marks :=
  match r with
  | .own level _ =>
    let answer := (r.checker c).satisfied level m.usedKeys
    (answer.1, { m with usedKeys := answer.2 })
  | .shared level =>
    let answer := c.visitLevel c.topEval ⟨level, 1⟩ 0 m
    (0 < answer.1, answer.2)

inductive Served (c : AuthorityChecker) : Marks → Prop
  | start : Served c ⟨∅, empty⟩
  | request {m : Marks} (r : Request) : Served c m → Served c (c.serve m r).2

section

variable {c : AuthorityChecker} {S : Set PermissionLevel} {m : Marks}

lemma mem_of_visitLevel (hS : c.rules.Closed S) (ha : ActorClosed S) (hm : CacheSound S m.cached) {level : PermissionLevel}
    (h : 0 < (c.visitLevel c.topEval ⟨level, 1⟩ 0 m).1) : level ∈ S := by
  by_contra hnot
  obtain ⟨_, _, hneg⟩ := visitLevel_sound hS ha (topEval_sound hS ha) ⟨level, 1⟩ 0 hm
  exact absurd (hneg hnot) (not_le.mpr h)

lemma Served.cacheSound (h : Served c m) (hS : c.rules.Closed S) (ha : ActorClosed S) : CacheSound S m.cached := by
  induction h with
  | start => exact fun p hp => nomatch hp
  | request r _ ih =>
    cases r with
    | own level delay => exact ih
    | shared level => exact (visitLevel_sound hS ha (topEval_sound hS ha) ⟨level, 1⟩ 0 ih).1

lemma serve_sound (h : Served c m) (r : Request) (ht : (c.serve m r).1 = true) (hS : (r.checker c).rules.Closed S)
    (ha : ActorClosed S) : r.level ∈ S := by
  cases r with
  | own level delay => exact mem_of_visitLevel hS ha (initialCache_sound hS) (of_decide_eq_true ht)
  | shared level => exact mem_of_visitLevel hS ha (h.cacheSound hS ha) (of_decide_eq_true ht)

lemma authorized_actorClosed (h : ∀ a, c.permissionToAuthority ⟨a, 0⟩ = none) : ActorClosed c.authorized := by
  intro p hp
  refine derivable_closed.given (.inr ?_)
  rcases mem_derivable_iff.mp hp with hg | ⟨_, _, hr, _⟩
  · exact hg.elim id id
  · have hrule : c.rules.rule ⟨p.actor, 0⟩ = none := by simp only [rules, h, Option.map_none]
    rw [hrule] at hr
    cases hr

theorem satisfied_sound (h : Served c m) (r : Request) (ht : (c.serve m r).1 = true) :
    (∀ S, (r.checker c).rules.Closed S → ActorClosed S → r.level ∈ S) ∧
    ((∀ a, c.permissionToAuthority ⟨a, 0⟩ = none) → r.level ∈ (r.checker c).authorized) := by
  refine ⟨fun S hS ha => serve_sound h r ht hS ha, ?_⟩
  intro hnone
  have hnone' : ∀ a, (r.checker c).permissionToAuthority ⟨a, 0⟩ = none := by
    cases r <;> exact hnone
  exact serve_sound h r ht derivable_closed (authorized_actorClosed hnone')

end

section

def nameless : AuthorityChecker where
  permissionToAuthority p :=
    if p = ⟨2, 1⟩ then some { threshold := 3, accounts := [⟨⟨1, 0⟩, 2⟩, ⟨⟨1, 5⟩, 1⟩] }
    else if p = ⟨1, 0⟩ then some (.ofKey 7)
    else if p = ⟨1, 5⟩ then some (.ofKey 8)
    else none
  recursionDepthLimit := 6
  providedKeys := [7]
  providedPermissions := []
  providedDelay := 0

lemma nameless_fires {p : PermissionLevel} (h : nameless.rules.Fires {⟨1, 0⟩} p) : p = ⟨1, 0⟩ := by
  obtain ⟨threshold, premises, hr, hle⟩ := h
  obtain ⟨auth, ha, hpair⟩ := Option.map_eq_some_iff.mp hr
  cases hpair
  simp only [nameless] at ha
  split_ifs at ha with h2 h1 h5
  · cases ha
    have hsort : Authority.metaPermissions { threshold := 3, accounts := [⟨⟨1, 0⟩, 2⟩, ⟨⟨1, 5⟩, 1⟩] } =
        [.level ⟨⟨1, 0⟩, 2⟩, .level ⟨⟨1, 5⟩, 1⟩] := by decide
    have hin : nameless.rules.holds {⟨1, 0⟩} (.level ⟨⟨1, 0⟩, 2⟩) := Set.mem_singleton _
    have hout : ¬ nameless.rules.holds {⟨1, 0⟩} (.level ⟨⟨1, 5⟩, 1⟩) := by simp [rules]
    rw [hsort, weightOf_cons_of_pos hin, weightOf_cons_of_neg hout, weightOf_nil] at hle
    exact absurd hle (by decide)
  · exact h1
  · cases ha
    have hsort : (Authority.ofKey 8).metaPermissions = [.key ⟨8, 1⟩] := by decide
    have hout : ¬ nameless.rules.holds {⟨1, 0⟩} (.key ⟨8, 1⟩) := by simp [rules, nameless]
    rw [hsort, weightOf_cons_of_neg hout, weightOf_nil] at hle
    exact absurd hle (by decide)

lemma nameless_closed : nameless.rules.Closed {⟨1, 0⟩} := by
  rintro p (hp | hp)
  · exact absurd hp (by simp [rules, nameless])
  · exact nameless_fires hp

theorem nameless_not_authorized :
    (nameless.satisfied ⟨2, 1⟩ ∅).1 = true ∧ (⟨2, 1⟩ : PermissionLevel) ∉ nameless.authorized := by
  refine ⟨by decide +kernel, ?_⟩
  intro h
  have hmem := derivable_subset nameless_closed h
  exact absurd hmem (by simp)

theorem nameless_sound :
    (∀ S, nameless.rules.Closed S → ActorClosed S → (⟨2, 1⟩ : PermissionLevel) ∈ S) ∧
    ((∀ a, nameless.permissionToAuthority ⟨a, 0⟩ = none) → (⟨2, 1⟩ : PermissionLevel) ∈ nameless.authorized) :=
  satisfied_sound (c := nameless) .start (.own ⟨2, 1⟩ none) (by decide +kernel)

end

lemma authorized_mono {c c' : AuthorityChecker} (hp : c.permissionToAuthority = c'.permissionToAuthority)
    (hk : ∀ k ∈ c.providedKeys, k ∈ c'.providedKeys) (hq : ∀ q ∈ c.providedPermissions, q ∈ c'.providedPermissions)
    (hd : c.providedDelay ≤ c'.providedDelay) : c.authorized ⊆ c'.authorized := by
  refine ThresholdSystem.derivable_mono ?_ ?_ rfl ?_
  · exact fun q hg => hg.imp (hq q) (hq _)
  · simp only [rules, hp]
  · intro S b hb
    cases b with
    | level p => exact hb
    | key k => exact hk k.key hb
    | wait w => exact le_trans hb hd

end AuthorityChecker

end XosChain
