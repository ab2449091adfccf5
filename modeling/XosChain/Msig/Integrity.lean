import XosChain.Msig.Actions
import XosChain.Token.Conservation

namespace XosChain.Msig

open Lib Raw Token.Tables FlatMap List Msig.Action

abbrev Step := Env × Action

section

def Proposal.key (p : Proposal) : Key := toLex (p.proposer, p.proposalName)

def proposes (k : Key) : Action → Option Proposal
  | .propose data =>
    match readProposal data with
    | .ok p => if p.key = k then some p else none
    | .error _ => none
  | _ => none

def origin (k : Key) : List Step → Option (Proposal × List Step)
  | [] => none
  | (env, a) :: history =>
    match proposes k a with
    | some p => some (p, [])
    | none => (origin k history).map fun r => (r.1, (env, a) :: r.2)

def approving (k : Key) (level : PermissionLevel) : Action := .approve (ofLex k).1 (ofLex k).2 level

def withdrawing (k : Key) (level : PermissionLevel) : Action := .unapprove (ofLex k).1 (ofLex k).2 level

def calls (a : Action) (later : List Step) : ℕ := later.countP fun s => s.2 = a

def standing (k : Key) (level : PermissionLevel) : List Step → Bool
  | [] => false
  | (_, a) :: later =>
    if a = approving k level then true else if a = withdrawing k level then false else standing k level later

end

section

variable {k : Key} {p : Proposal} {later : List Step} {info : ApprovalsInfo} {level : PermissionLevel} {env : Env}
  {a : Action}

structure Supported (k : Key) (p : Proposal) (later : List Step) (info : ApprovalsInfo) : Prop where
  perm : (info.requested ++ info.provided).Perm p.requested
  count : ∀ level, info.provided.count level + calls (withdrawing k level) later = calls (approving k level) later
  last : ∀ level, p.requested.count level ≤ 1 → (level ∈ info.provided ↔ standing k level later = true)
  authorized : ∀ s ∈ later, ∀ level, s.2 = approving k level → s.1.hasLevel level = true

variable {level' : PermissionLevel}

lemma approving_injective (h : approving k level = approving k level') : level = level' :=
  (approve.inj h).2.2

lemma withdrawing_injective (h : withdrawing k level = withdrawing k level') :
    level = level' :=
  (unapprove.inj h).2.2

lemma approving_ne_withdrawing : approving k level ≠ withdrawing k level' := nofun

lemma calls_cons (env : Env) (a b : Action) (later : List Step) :
    calls b ((env, a) :: later) = calls b later + if a = b then 1 else 0 := by
  rw [calls, calls, countP_cons]
  simp

lemma Supported.start (k : Key) (p : Proposal) : Supported k p [] { requested := p.requested } where
  perm := by simp
  count := fun _ => rfl
  last := fun _ _ => by simp [standing]
  authorized := nofun

lemma Supported.other (h : Supported k p later info) (ha : ∀ level, a ≠ approving k level ∧ a ≠ withdrawing k level) :
    Supported k p ((env, a) :: later) info where
  perm := h.perm
  count := fun level => by
    rw [calls_cons, calls_cons, if_neg (ha level).1, if_neg (ha level).2]
    exact h.count level
  last := fun level hcount => by
    rw [standing, if_neg (ha level).1, if_neg (ha level).2]
    exact h.last level hcount
  authorized := forall_mem_cons.mpr ⟨fun level hl => absurd hl (ha level).1, h.authorized⟩

lemma Supported.approve (h : Supported k p later info) (hlevel : level ∈ info.requested)
    (hauth : env.hasLevel level = true) :
    Supported k p ((env, approving k level) :: later) ⟨info.requested.erase level, info.provided ++ [level]⟩ where
  perm := by
    have hmove : (info.requested.erase level ++ (info.provided ++ [level])).Perm (info.requested ++ info.provided) := by
      rw [← append_assoc]
      refine perm_append_singleton _ _ |>.trans ?_
      exact ((perm_cons_erase hlevel).symm.append_right info.provided)
    exact hmove.trans h.perm
  count := fun l => by
    have hcount := h.count l
    rw [calls_cons, calls_cons, if_neg approving_ne_withdrawing, count_append, count_singleton]
    by_cases hl : level = l
    · subst hl
      simp
      omega
    · have hne : approving k level ≠ approving k l := fun he => hl (approving_injective he)
      rw [if_neg hne]
      simp [hl]
      omega
  last := fun l hcount => by
    rw [standing]
    by_cases hl : level = l
    · subst hl
      simp
    · have hne : approving k level ≠ approving k l := fun he => hl (approving_injective he)
      rw [if_neg hne, if_neg approving_ne_withdrawing, ← h.last l hcount]
      simp [Ne.symm hl]
  authorized := by
    refine forall_mem_cons.mpr ⟨fun l hl => ?_, h.authorized⟩
    rw [← approving_injective hl]
    exact hauth

lemma Supported.unapprove (h : Supported k p later info) (hlevel : level ∈ info.provided) :
    Supported k p ((env, withdrawing k level) :: later) ⟨info.requested ++ [level], info.provided.erase level⟩ where
  perm := by
    have hmove : (info.requested ++ [level] ++ info.provided.erase level).Perm (info.requested ++ info.provided) := by
      rw [append_assoc]
      exact (perm_cons_erase hlevel).symm.append_left info.requested
    exact hmove.trans h.perm
  count := fun l => by
    have hcount := h.count l
    have hpos := count_pos_iff.mpr hlevel
    rw [calls_cons, calls_cons, if_neg approving_ne_withdrawing.symm, count_erase]
    by_cases hl : level = l
    · subst hl
      simp
      omega
    · have hne : withdrawing k level ≠ withdrawing k l := fun he => hl (withdrawing_injective he)
      rw [if_neg hne]
      simp [hl]
      omega
  last := fun l hcount => by
    rw [standing, if_neg approving_ne_withdrawing.symm]
    by_cases hl : level = l
    · subst hl
      have hperm := h.perm.count_eq level
      rw [count_append] at hperm
      have hzero : level ∉ info.provided.erase level := by
        rw [← count_eq_zero, count_erase_self]
        omega
      simp [hzero]
    · have hne : withdrawing k level ≠ withdrawing k l := fun he => hl (withdrawing_injective he)
      rw [if_neg hne, ← h.last l hcount]
      exact mem_erase_of_ne (Ne.symm hl)
  authorized := forall_mem_cons.mpr ⟨fun _ hl => absurd hl.symm approving_ne_withdrawing, h.authorized⟩

end

section

variable {env : Env} {t t' : Tables} {sent : List Deferred} {proposer account : AccountName} {proposalName : ℕ}
  {level : PermissionLevel}

lemma propose_ok {data : Bytes} (h : propose env t data = .ok t') :
    ∃ p, readProposal data = .ok p ∧ t.approvals.find? p.key = none ∧
      t' = ⟨t.proposals.set p.key p.trx, t.approvals.set p.key { requested := p.requested }⟩ := by
  obtain ⟨p, hp, h⟩ := bind_ok h
  obtain ⟨header, -, h⟩ := bind_ok h
  obtain ⟨-, h⟩ := eosAssert_ok h
  obtain ⟨-, h⟩ := eosioAssert_ok h
  obtain ⟨-, h⟩ := eosioAssert_ok h
  obtain ⟨res, -, h⟩ := bind_ok h
  obtain ⟨-, h⟩ := eosioAssert_ok h
  obtain ⟨hnone, h⟩ := eosioAssert_ok h
  exact ⟨p, hp, hnone, (Except.ok.inj h).symm⟩

lemma approve_ok (h : approve env t proposer proposalName level = .ok t') :
    ∃ apps, t.approvals.find? (toLex (proposer, proposalName)) = some apps ∧ env.hasLevel level = true ∧
      level ∈ apps.requested ∧ t' = ⟨t.proposals, t.approvals.set (toLex (proposer, proposalName))
        ⟨apps.requested.erase level, apps.provided ++ [level]⟩⟩ := by
  obtain ⟨hauth, h⟩ := eosAssert_ok h
  obtain ⟨apps, happs, h⟩ := bind_ok h
  obtain ⟨hmem, h⟩ := eosioAssert_ok h
  exact ⟨apps, getRow_ok happs, hauth, hmem, (Except.ok.inj h).symm⟩

lemma unapprove_ok (h : unapprove env t proposer proposalName level = .ok t') :
    ∃ apps, t.approvals.find? (toLex (proposer, proposalName)) = some apps ∧ level ∈ apps.provided ∧
      t' = ⟨t.proposals, t.approvals.set (toLex (proposer, proposalName))
        ⟨apps.requested ++ [level], apps.provided.erase level⟩⟩ := by
  obtain ⟨-, h⟩ := eosAssert_ok h
  obtain ⟨apps, happs, h⟩ := bind_ok h
  obtain ⟨hmem, h⟩ := eosioAssert_ok h
  exact ⟨apps, getRow_ok happs, hmem, (Except.ok.inj h).symm⟩

lemma cancel_ok (h : cancel env t proposer proposalName account = .ok t') :
    t' = removed t (toLex (proposer, proposalName)) := by
  obtain ⟨-, h⟩ := eosAssert_ok h
  obtain ⟨prop, -, h⟩ := bind_ok h
  obtain ⟨-, -, h⟩ := bind_ok h
  obtain ⟨apps, -, h⟩ := bind_ok h
  exact (Except.ok.inj h).symm

lemma exec_ok {d : Deferred} (h : exec env t proposer proposalName account = .ok (t', d)) :
    ∃ prop apps res, t.proposals.find? (toLex (proposer, proposalName)) = some prop ∧
      t.approvals.find? (toLex (proposer, proposalName)) = some apps ∧
      env.checkTransactionAuthorization prop (packLevels apps.provided) = .ok res ∧ res > 0 ∧
      d = ⟨(proposer <<< 64) ||| proposalName, account, prop⟩ ∧ t' = removed t (toLex (proposer, proposalName)) := by
  obtain ⟨-, h⟩ := eosAssert_ok h
  obtain ⟨prop, hprop, h⟩ := bind_ok h
  obtain ⟨apps, happs, h⟩ := bind_ok h
  obtain ⟨header, -, h⟩ := bind_ok h
  obtain ⟨-, h⟩ := eosioAssert_ok h
  obtain ⟨res, hres, h⟩ := bind_ok h
  obtain ⟨hpos, h⟩ := eosioAssert_ok h
  obtain ⟨-, -, h⟩ := bind_ok h
  cases h
  exact ⟨prop, apps, res, getRow_ok hprop, getRow_ok happs, hres, hpos, rfl, rfl⟩

end

section

variable {env : Env} {t t' : Tables} {history : List Step} {k j : Key} {info : ApprovalsInfo} {a : Action}

def KeptAt (history : List Step) (t : Tables) (k : Key) : Prop :=
  match t.approvals.find? k with
  | none => t.proposals.find? k = none
  | some info => ∃ p later, origin k history = some (p, later) ∧ t.proposals.find? k = some p.trx ∧
      Supported k p later info

lemma origin_cons (hnot : proposes k a = none) :
    origin k ((env, a) :: history) = (origin k history).map fun r => (r.1, (env, a) :: r.2) := by
  rw [origin, hnot]

lemma KeptAt.other (h : KeptAt history t k) (hproposals : t'.proposals.find? k = t.proposals.find? k)
    (happrovals : t'.approvals.find? k = t.approvals.find? k) (hnot : proposes k a = none)
    (ha : ∀ level, a ≠ approving k level ∧ a ≠ withdrawing k level) : KeptAt ((env, a) :: history) t' k := by
  unfold KeptAt at h ⊢
  rw [hproposals, happrovals]
  split
  · next hnone =>
    rw [hnone] at h
    exact h
  · next info hinfo =>
    rw [hinfo] at h
    obtain ⟨p, later, horigin, hprop, hsupported⟩ := h
    refine ⟨p, (env, a) :: later, ?_, hprop, hsupported.other ha⟩
    rw [origin_cons hnot, horigin]
    rfl

lemma KeptAt.update {apps : ApprovalsInfo} (h : KeptAt history t k) (happs : t.approvals.find? k = some apps)
    (hnot : proposes k a = none) (hs : ∀ p later, Supported k p later apps → Supported k p ((env, a) :: later) info) :
    KeptAt ((env, a) :: history) ⟨t.proposals, t.approvals.set k info⟩ k := by
  unfold KeptAt at h ⊢
  rw [happs] at h
  obtain ⟨p, later, horigin, hprop, hsupported⟩ := h
  rw [find?_set_self]
  refine ⟨p, (env, a) :: later, ?_, hprop, hs p later hsupported⟩
  rw [origin_cons hnot, horigin]
  rfl

lemma KeptAt.removed (hproposals : t'.proposals.find? k = none) (happrovals : t'.approvals.find? k = none) :
    KeptAt history t' k := by
  unfold KeptAt
  rw [happrovals]
  exact hproposals

lemma keptAt_remove (h : ∀ k, KeptAt history t k) (hnot : ∀ k, proposes k a = none)
    (ha : ∀ k level, a ≠ approving k level ∧ a ≠ withdrawing k level) :
    KeptAt ((env, a) :: history) (Msig.removed t j) k := by
  by_cases hk : j = k
  · subst hk
    exact .removed (find?_erase_self _ _) (find?_erase_self _ _)
  · exact (h k).other (find?_erase_of_ne _ hk) (find?_erase_of_ne _ hk) (hnot k) (ha k)

lemma Run.keptAt (h : Run history t) (k : Key) : KeptAt history t k := by
  induction h generalizing k with
  | start => rfl
  | @step history t t' sent env a h hs ih =>
    cases a with
    | propose data =>
      obtain ⟨u, hu, hs⟩ := bind_ok hs
      cases hs
      obtain ⟨p, hp, hnone, rfl⟩ := propose_ok hu
      by_cases hk : p.key = k
      · unfold KeptAt
        subst hk
        rw [find?_set_self]
        refine ⟨p, [], ?_, find?_set_self _ _ _, .start _ p⟩
        simp [origin, proposes, hp]
      · have hnot : proposes k (.propose data) = none := by simp [proposes, hp, hk]
        exact (ih k).other (find?_set_of_ne _ _ hk) (find?_set_of_ne _ _ hk) hnot
          fun _ => ⟨nofun, nofun⟩
    | approve proposer proposalName level =>
      obtain ⟨u, hu, hs⟩ := bind_ok hs
      cases hs
      obtain ⟨apps, happs, hauth, hmem, rfl⟩ := approve_ok hu
      by_cases hk : toLex (proposer, proposalName) = k
      · subst hk
        exact (ih _).update happs rfl fun p later hsupported => hsupported.approve hmem hauth
      · refine (ih k).other rfl (find?_set_of_ne _ _ hk) rfl fun l => ⟨fun he => ?_, nofun⟩
        obtain ⟨h1, h2, -⟩ := approve.inj he
        exact hk (congrArg toLex (Prod.ext h1 h2))
    | unapprove proposer proposalName level =>
      obtain ⟨u, hu, hs⟩ := bind_ok hs
      cases hs
      obtain ⟨apps, happs, hmem, rfl⟩ := unapprove_ok hu
      by_cases hk : toLex (proposer, proposalName) = k
      · subst hk
        exact (ih _).update happs rfl fun p later hsupported => hsupported.unapprove hmem
      · refine (ih k).other rfl (find?_set_of_ne _ _ hk) rfl fun l => ⟨nofun, fun he => ?_⟩
        obtain ⟨h1, h2, -⟩ := unapprove.inj he
        exact hk (congrArg toLex (Prod.ext h1 h2))
    | cancel proposer proposalName canceler =>
      obtain ⟨u, hu, hs⟩ := bind_ok hs
      cases hs
      obtain rfl := cancel_ok hu
      exact keptAt_remove ih (fun _ => rfl) fun _ _ => ⟨nofun, nofun⟩
    | exec proposer proposalName executer =>
      obtain ⟨⟨u, d⟩, hu, hs⟩ := bind_ok hs
      cases hs
      obtain ⟨prop, apps, res, -, -, -, -, -, rfl⟩ := exec_ok hu
      exact keptAt_remove ih (fun _ => rfl) fun _ _ => ⟨nofun, nofun⟩

theorem multisig_integrity (h : Run history t) :
    (∀ k, (t.proposals.find? k).isSome = (t.approvals.find? k).isSome) ∧
    (∀ k info, t.approvals.find? k = some info →
      ∃ p later, origin k history = some (p, later) ∧ Supported k p later info) ∧
    ∀ env proposer proposalName executer t' sent,
      t.apply env (.exec proposer proposalName executer) = .ok (t', sent) →
      ∃ p later info res, origin (toLex (proposer, proposalName)) history = some (p, later) ∧
        t.approvals.find? (toLex (proposer, proposalName)) = some info ∧
        env.checkTransactionAuthorization p.trx (packLevels info.provided) = .ok res ∧ res > 0 ∧
        sent = [⟨(proposer <<< 64) ||| proposalName, executer, p.trx⟩] ∧
        t'.proposals = t.proposals.erase (toLex (proposer, proposalName)) ∧
        t'.approvals = t.approvals.erase (toLex (proposer, proposalName)) := by
  refine ⟨fun k => ?_, fun k info hinfo => ?_, fun env proposer proposalName executer t' sent hs => ?_⟩
  · have hkept := h.keptAt k
    unfold KeptAt at hkept
    split at hkept
    · next hnone => rw [hkept, hnone]; rfl
    · next info hinfo =>
      obtain ⟨p, later, -, hprop, -⟩ := hkept
      rw [hprop, hinfo]
      rfl
  · have hkept := h.keptAt k
    unfold KeptAt at hkept
    rw [hinfo] at hkept
    obtain ⟨p, later, horigin, -, hsupported⟩ := hkept
    exact ⟨p, later, horigin, hsupported⟩
  · obtain ⟨⟨u, d⟩, hu, hs⟩ := bind_ok hs
    cases hs
    obtain ⟨prop, apps, res, hprop, happs, hres, hpos, rfl, rfl⟩ := exec_ok hu
    have hkept := h.keptAt (toLex (proposer, proposalName))
    unfold KeptAt at hkept
    rw [happs] at hkept
    obtain ⟨p, later, horigin, hprop', -⟩ := hkept
    obtain rfl := Option.some.inj (hprop.symm.trans hprop')
    exact ⟨p, later, apps, res, horigin, happs, hres, hpos, rfl, rfl, rfl⟩

def willing : Env :=
  { now := 5, hasAuth := fun _ => true, hasLevel := fun _ => true, checkTransactionAuthorization := fun _ _ => pure 1 }

def emptyTrx : Bytes := littleEndian 4 100 ++ List.replicate 12 0

def proposing (requested : List PermissionLevel) : Action :=
  .propose (littleEndian 8 1 ++ littleEndian 8 2 ++ packLevels requested ++ emptyTrx)

theorem approved_then_sent : ∃ t t' sent,
    Run [(willing, .approve 1 2 ⟨3, 4⟩), (willing, proposing [⟨3, 4⟩])] t ∧
    t.apply willing (.exec 1 2 7) = .ok (t', sent) ∧ sent = [⟨18446744073709551618, 7, emptyTrx⟩] ∧
    (∀ k, (t.proposals.find? k).isSome = (t.approvals.find? k).isSome) ∧
    ∃ p later, origin (toLex (1, 2)) [(willing, .approve 1 2 ⟨3, 4⟩), (willing, proposing [⟨3, 4⟩])] = some (p, later) ∧
      Supported (toLex (1, 2)) p later ⟨[], [⟨3, 4⟩]⟩ := by
  have hok : (({} : Tables).apply willing (proposing [⟨3, 4⟩]) >>= fun r1 =>
      r1.1.apply willing (.approve 1 2 ⟨3, 4⟩) >>= fun r2 => r2.1.apply willing (.exec 1 2 7) >>= fun r3 =>
      pure (r2.1, r3)).map (fun r => (r.1.approvals.find? (toLex (1, 2)), r.2.2)) =
      .ok (some ⟨[], [⟨3, 4⟩]⟩, [⟨18446744073709551618, 7, emptyTrx⟩]) := by decide +kernel
  obtain ⟨⟨t, t', sent⟩, hrun, hview⟩ := exists_of_map_ok hok
  obtain ⟨⟨t1, d1⟩, h1, hrun⟩ := bind_ok hrun
  obtain ⟨⟨t2, d2⟩, h2, hrun⟩ := bind_ok hrun
  obtain ⟨⟨t3, d3⟩, h3, hrun⟩ := bind_ok hrun
  cases hrun
  obtain ⟨hinfo, hsent⟩ := Prod.mk.inj hview
  have hrun := Run.step willing _ (.step willing _ .start h1) h2
  have hintegrity := multisig_integrity hrun
  exact ⟨t2, t', sent, hrun, h3, hsent, hintegrity.1, hintegrity.2.1 _ _ hinfo⟩

theorem withdrawn_but_provided : ∃ history t info p later, Run history t ∧
    t.approvals.find? (toLex (1, 2)) = some info ∧ origin (toLex (1, 2)) history = some (p, later) ∧
    ⟨3, 4⟩ ∈ info.provided ∧ standing (toLex (1, 2)) ⟨3, 4⟩ later = false := by
  have hok : (({} : Tables).apply willing (proposing [⟨3, 4⟩, ⟨3, 4⟩]) >>= fun r1 =>
      r1.1.apply willing (.approve 1 2 ⟨3, 4⟩) >>= fun r2 => r2.1.apply willing (.approve 1 2 ⟨3, 4⟩) >>= fun r3 =>
      r3.1.apply willing (.unapprove 1 2 ⟨3, 4⟩)).map (fun r => r.1.approvals.find? (toLex (1, 2))) =
      .ok (some ⟨[⟨3, 4⟩], [⟨3, 4⟩]⟩) := by decide +kernel
  obtain ⟨⟨t, d⟩, hrun, hinfo⟩ := exists_of_map_ok hok
  obtain ⟨⟨t1, d1⟩, h1, hrun⟩ := bind_ok hrun
  obtain ⟨⟨t2, d2⟩, h2, hrun⟩ := bind_ok hrun
  obtain ⟨⟨t3, d3⟩, h3, hrun⟩ := bind_ok hrun
  have hrun := Run.step willing _ (.step willing _ (.step willing _ (.step willing _ .start h1) h2) h3) hrun
  have hproposes : proposes (toLex (1, 2)) (proposing [⟨3, 4⟩, ⟨3, 4⟩]) =
      some ⟨1, 2, [⟨3, 4⟩, ⟨3, 4⟩], emptyTrx⟩ := by decide +kernel
  have horigin : origin (toLex (1, 2)) [(willing, .unapprove 1 2 ⟨3, 4⟩), (willing, .approve 1 2 ⟨3, 4⟩),
      (willing, .approve 1 2 ⟨3, 4⟩), (willing, proposing [⟨3, 4⟩, ⟨3, 4⟩])] =
      some (⟨1, 2, [⟨3, 4⟩, ⟨3, 4⟩], emptyTrx⟩, [(willing, .unapprove 1 2 ⟨3, 4⟩), (willing, .approve 1 2 ⟨3, 4⟩),
        (willing, .approve 1 2 ⟨3, 4⟩)]) := by
    rw [origin_cons rfl, origin_cons rfl, origin_cons rfl, origin, hproposes]
    rfl
  exact ⟨_, t, _, _, _, hrun, hinfo, horigin, mem_singleton_self _, by decide⟩

end

section

variable {env : Env} {t t' : Tables} {history : List Step} {sent : List Deferred} {a : Action} {j : Key}

def ends (k : Key) : Action → Bool
  | .cancel proposer proposalName _ | .exec proposer proposalName _ => toLex (proposer, proposalName) = k
  | _ => false

def live (t : Tables) (k : Key) : ℕ := (t.proposals.find? k).elim 0 fun _ => 1

lemma live_removed {prop : Bytes} (h : t.proposals.find? j = some prop) (k : Key) :
    live (removed t j) k + (if j = k then 1 else 0) = live t k := by
  by_cases hk : j = k
  · subst hk
    simp [live, removed, h]
  · simp [live, removed, hk, find?_erase_of_ne _ hk]

lemma Run.live_step (h : Run history t) (hs : t.apply env a = .ok (t', sent)) (k : Key) :
    live t' k + (if ends k a then 1 else 0) = live t k + if (proposes k a).isSome then 1 else 0 := by
  cases a with
  | propose data =>
    obtain ⟨u, hu, hs⟩ := bind_ok hs
    cases hs
    obtain ⟨p, hp, hnone, rfl⟩ := propose_ok hu
    have hkept := h.keptAt p.key
    rw [KeptAt, hnone] at hkept
    by_cases hk : p.key = k
    · subst hk
      simp [live, ends, proposes, hp, hkept]
    · simp [live, ends, proposes, hp, hk, find?_set_of_ne _ _ hk]
  | approve =>
    obtain ⟨u, hu, hs⟩ := bind_ok hs
    cases hs
    obtain ⟨_, -, -, -, rfl⟩ := approve_ok hu
    rfl
  | unapprove =>
    obtain ⟨u, hu, hs⟩ := bind_ok hs
    cases hs
    obtain ⟨_, -, -, rfl⟩ := unapprove_ok hu
    rfl
  | cancel =>
    obtain ⟨u, hu, hs⟩ := bind_ok hs
    cases hs
    obtain rfl := cancel_ok hu
    obtain ⟨-, hu⟩ := eosAssert_ok hu
    obtain ⟨prop, hprop, -⟩ := bind_ok hu
    simpa [ends, proposes] using live_removed (getRow_ok hprop) k
  | exec =>
    obtain ⟨⟨u, d⟩, hu, hs⟩ := bind_ok hs
    cases hs
    obtain ⟨prop, _, _, hprop, -, -, -, -, rfl⟩ := exec_ok hu
    simpa [ends, proposes] using live_removed hprop k

theorem proposals_end_once (h : Run history t) (k : Key) :
    history.countP (fun s => ends k s.2) + live t k = history.countP fun s => (proposes k s.2).isSome := by
  induction h with
  | start => rfl
  | step env a h hs ih =>
    have hstep := h.live_step hs k
    rw [countP_cons, countP_cons]
    dsimp only
    omega

def proposedAgain : List Step :=
  [(willing, proposing [⟨3, 4⟩]), (willing, .cancel 1 2 1), (willing, proposing []), (willing, .exec 1 2 7),
    (willing, .approve 1 2 ⟨3, 4⟩), (willing, proposing [⟨3, 4⟩])]

theorem proposedAgain_ends_twice : ∃ t, Run proposedAgain t ∧ live t (toLex (1, 2)) = 1 ∧
    proposedAgain.countP (fun s => ends (toLex (1, 2)) s.2) = 2 ∧
    proposedAgain.countP (fun s => (proposes (toLex (1, 2)) s.2).isSome) = 3 := by
  have hok : (({} : Tables).apply willing (proposing [⟨3, 4⟩]) >>= fun r1 =>
      r1.1.apply willing (.approve 1 2 ⟨3, 4⟩) >>= fun r2 => r2.1.apply willing (.exec 1 2 7) >>= fun r3 =>
      r3.1.apply willing (proposing []) >>= fun r4 => r4.1.apply willing (.cancel 1 2 1) >>= fun r5 =>
      r5.1.apply willing (proposing [⟨3, 4⟩])).map (fun _ => ()) = .ok () := by decide +kernel
  obtain ⟨⟨t, d⟩, h, -⟩ := exists_of_map_ok hok
  simp only [result_bind] at h
  obtain ⟨⟨t1, d1⟩, h1, ⟨t2, d2⟩, h2, ⟨t3, d3⟩, h3, ⟨t4, d4⟩, h4, ⟨t5, d5⟩, h5, h⟩ := h
  have hrun : Run proposedAgain t :=
    .step willing _ (.step willing _ (.step willing _ (.step willing _ (.step willing _ (.step willing _ .start
      h1) h2) h3) h4) h5) h
  have hended : proposedAgain.countP (fun s => ends (toLex (1, 2)) s.2) = 2 := by decide +kernel
  have hproposed : proposedAgain.countP (fun s => (proposes (toLex (1, 2)) s.2).isSome) = 3 := by decide +kernel
  have hlive := proposals_end_once hrun (toLex (1, 2))
  exact ⟨t, hrun, by omega, hended, hproposed⟩

end

end XosChain.Msig
