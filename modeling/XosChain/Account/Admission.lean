import XosChain.Account.CheckerSound
import XosChain.Account.Confinement

namespace XosChain.Db

open Lib AuthorityChecker FlatMap ThresholdSystem Config List ToSatisfy

variable {db : Db} {ctx : Context} {keys : List PublicKey} {permissions : List PermissionLevel} {m m' : ToSatisfy}
  {level other : PermissionLevel} {delay d : ℕ} {act : Action} {special : Bool}

def ToSatisfy.Asks (m : ToSatisfy) (level : PermissionLevel) (delay : ℕ) : Prop :=
  ∃ d ≤ delay, m.find? level.key = some d

def Relevant (db : Db) (act : Action) (level : PermissionLevel) : Prop :=
  ∀ name, db.lookupMinimumPermission level.actor act.account act.name = .ok (some name) →
    ∃ p, db.getPermission level = .ok p ∧ db.SatisfiesNamed p level.actor name

lemma ToSatisfy.require_eq (m : ToSatisfy) (level : PermissionLevel) (delay : ℕ) :
    m.require level delay = m.set level.key ((m.find? level.key).elim delay (min delay)) := by
  rw [require]
  cases hm : m.find? level.key with
  | none => rfl
  | some before =>
    by_cases hlt : delay < before
    · simp [hlt, hlt.le]
    · simp [hlt, not_lt.mp hlt, set_eq_self hm]

lemma ToSatisfy.require_asks (h : other = level ∧ delay ≤ d ∨ m.Asks level d) : (m.require other delay).Asks level d := by
  rw [require_eq, Asks, find?_set]
  split_ifs with hk
  · obtain rfl := PermissionLevel.key_injective hk
    refine ⟨_, ?_, rfl⟩
    rcases h with ⟨-, hd⟩ | ⟨d', hd, hm⟩
    · cases m.find? other.key <;> simp [hd]
    · simp [hm, hd]
  · exact h.resolve_left fun h => hk (h.1 ▸ rfl)

lemma declare_ok (h : db.declare act special delay m level = .ok m') :
    m' = m.require level delay ∧ (special = false → db.Relevant act level) := by
  cases special with
  | true => exact ⟨(Except.ok.inj h).symm, nofun⟩
  | false =>
    obtain ⟨u, hu, h⟩ := bind_ok h
    refine ⟨(Except.ok.inj h).symm, fun _ name hname => ?_⟩
    obtain ⟨min, hmin, hu⟩ := bind_ok hu
    cases hmin.symm.trans hname
    obtain ⟨q, hq, hu⟩ := bind_ok hu
    obtain ⟨p, hp, -⟩ := bind_ok hu
    exact ⟨p, hp, q, hq, requireSatisfies_ok hu hp⟩

lemma asks_of_declared {l : List PermissionLevel} (h : l.foldlM (db.declare act special delay) m = .ok m')
    (hm : m.Asks level d) : m'.Asks level d := by
  refine foldlM_invariant (P := (·.Asks level d)) (fun s other t hs ht => ?_) hm h
  rw [(declare_ok ht).1]
  exact require_asks (.inr hs)

lemma asks_of_checked (h : db.checkAction delay m act = .ok m') (hm : m.Asks level d) : m'.Asks level d := by
  obtain ⟨o, -, h⟩ := bind_ok h
  exact asks_of_declared h hm

lemma checker_actorClosed : ActorClosed (db.checker ctx keys permissions delay).authorized := by
  refine authorized_actorClosed fun a => ?_
  cases hp : db.getPermission ⟨a, 0⟩ with
  | ok p => exact absurd rfl (getPermission_ok.mp hp).2.1
  | error e => simp [checker, hp, Except.toOption]

lemma satisfyAll_authorized {used : Finset PublicKey} (h : satisfyAll (db.checker ctx keys permissions delay) m = .ok used)
    (ha : m.Asks level d) : level ∈ (db.checker ctx keys permissions d).authorized := by
  obtain ⟨d', hle, hm⟩ := ha
  obtain ⟨used, _, hs⟩ := foldlM_mem h ((m.find?_eq_some_iff _ _).mp hm)
  obtain ⟨ht, -⟩ := eosAssert_ok hs
  have hd : level ∈ (db.checker ctx keys permissions d').authorized :=
    mem_of_visitLevel (m := ⟨used, _⟩) derivable_closed checker_actorClosed (initialCache_sound derivable_closed)
      (of_decide_eq_true ht)
  refine authorized_mono ?_ ?_ ?_ hle hd
  all_goals simp [checker]

theorem declared_levels_are_authorized {actions : List Action} {allowUnused : Bool}
    (h : db.checkAuthorization ctx actions keys permissions delay allowUnused = .ok ())
    (hd : d = if ctx.maxTransactionDelay * 1000000 ≤ delay then maximumDelay else delay) :
    ∀ act ∈ actions, ∃ o, db.checkSpecial act d = .ok o ∧ ∀ level ∈ act.authorization,
      level ∈ (db.checker ctx keys permissions (o.getD d)).authorized ∧ (o = none → db.Relevant act level) := by
  subst hd
  obtain ⟨m, hm, h⟩ := bind_ok h
  obtain ⟨used, hused, -⟩ := bind_ok h
  intro act ha
  obtain ⟨s, t, later, hact, hlater⟩ := foldlM_split hm ha
  obtain ⟨o, ho, hact⟩ := bind_ok hact
  refine ⟨o, ho, fun level hl => ?_⟩
  obtain ⟨s', t', rest, hlevel, hrest⟩ := foldlM_split hact hl
  obtain ⟨rfl, hrelevant⟩ := declare_ok hlevel
  have hasks := asks_of_declared hrest (require_asks (.inl ⟨rfl, le_rfl⟩))
  have hasks := foldlM_invariant (fun _ _ _ hs ht => asks_of_checked ht hs) hasks hlater
  exact ⟨satisfyAll_authorized hused hasks, fun hn => hrelevant (hn ▸ rfl)⟩

theorem ownerLinked_authorized : ∃ start o, genesis 7 [] 0 = .ok start ∧
    start.checkSpecial (linkingAction ownerName) 0 = .ok o ∧
    ⟨systemAccountName, activeName⟩ ∈ (start.checker {} [7] [] (o.getD 0)).authorized := by
  obtain ⟨start, _, hg, hc, -⟩ := ownerLinked
  obtain ⟨o, ho, hlevels⟩ := declared_levels_are_authorized hc rfl _ (mem_singleton_self _)
  exact ⟨start, o, hg, ho, (hlevels _ (mem_singleton_self _)).1⟩

end XosChain.Db
