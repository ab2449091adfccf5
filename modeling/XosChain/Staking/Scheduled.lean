import XosChain.Staking.Effects

namespace XosChain.Staking

open Lib FlatMap

def PendingScheduled (t : Tables) : Prop :=
  ∀ a r, t.refunds.find? a = some r → ∃ d, t.scheduled.find? a = some d ∧ d.owner = a

def Strands (t : Tables) : Action → Prop
  | .delegatebw signer receiver _ _ transfer => signer ≠ stakeAccount ∧ signer ≠ receiver ∧
      (t.refunds.find? (if transfer then receiver else signer)).isSome
  | .undelegatebw _ _ _ _ => False
  | .refund _ => False

variable {env : Env} {t t' u : Tables} {signer sender receiver owner : AccountName} {net cpu sum : Asset}
  {left : Weights} {transfer : Bool} {inlines : List InlineTransfer}

namespace Env

lemma PendingScheduled.cancel_iff (h : PendingScheduled t) :
    PendingScheduled { t with scheduled := t.scheduled.erase sender } ↔ t.refunds.find? sender = none := by
  constructor
  · intro hp
    cases hr : t.refunds.find? sender with
    | none => rfl
    | some r =>
      obtain ⟨d, hd, -⟩ := hp sender r hr
      rw [find?_erase_self] at hd
      cases hd
  · intro hnone a r hr
    have hne : sender ≠ a := by
      rintro rfl
      exact nomatch hnone.symm.trans hr
    obtain ⟨d, hd, ha⟩ := h a r hr
    exact ⟨d, (find?_erase_of_ne _ hne).trans hd, ha⟩

lemma updateRefund_scheduled (hp : PendingScheduled t)
    (hcase : (!transfer && sender = receiver || net.amount + cpu.amount < 0) = true)
    (h : env.updateRefund t sender receiver net cpu transfer = .ok (t', left)) : PendingScheduled t' := by
  rw [updateRefund, if_pos hcase] at h
  obtain ⟨⟨row, rest⟩, -, h⟩ := bind_ok h
  cases row with
  | none =>
    cases h
    intro a r hr
    rw [find?_erase] at hr ⊢
    split_ifs at hr ⊢
    exact hp a r hr
  | some row =>
    obtain ⟨-, -, h⟩ := bind_ok h
    cases h
    intro a r hr
    rw [find?_set] at hr ⊢
    split_ifs at hr ⊢ with ha
    · exact ⟨_, rfl, ha⟩
    · rw [find?_erase_of_ne _ ha]
      exact hp a r hr

lemma updateRefund_cancels (hcase : ¬ (!transfer && sender = receiver || net.amount + cpu.amount < 0) = true)
    (h : env.updateRefund t sender receiver net cpu transfer = .ok (t', left)) :
    t' = { t with scheduled := t.scheduled.erase sender } := by
  rw [updateRefund, if_neg hcase] at h
  exact (Prod.mk.inj (Except.ok.inj h)).1.symm

def Settles (signer sender receiver : AccountName) (net cpu : Asset) (transfer : Bool) : Prop :=
  signer = stakeAccount ∨ (!transfer && sender = receiver || net.amount + cpu.amount < 0) = true

section

variable (hp : PendingScheduled t)

include hp

lemma settle_scheduled (h : env.settle t signer sender receiver net cpu transfer = .ok (t', inlines)) :
    PendingScheduled t' ↔ Settles signer sender receiver net cpu transfer ∨ t.refunds.find? sender = none := by
  rw [settle] at h
  split_ifs at h with hsigner
  · obtain ⟨⟨u, left⟩, hu, h⟩ := bind_ok h
    obtain ⟨pay, -, h⟩ := bind_ok h
    cases h
    by_cases hcase : (!transfer && sender = receiver || net.amount + cpu.amount < 0) = true
    · exact ⟨fun _ => .inl (.inr hcase), fun _ => updateRefund_scheduled hp hcase hu⟩
    · obtain rfl := updateRefund_cancels hcase hu
      rw [PendingScheduled.cancel_iff hp]
      have hn : ¬ Settles signer sender receiver net cpu transfer := by
        rintro (hs | hs)
        · exact hsigner hs.symm
        · exact hcase hs
      exact ⟨.inr, fun h => h.resolve_left hn⟩
  · cases h
    exact ⟨fun _ => .inl (.inl (not_not.mp hsigner).symm), fun _ => hp⟩

lemma changebw_scheduled (h : env.changebw t signer receiver net cpu transfer = .ok (t', inlines)) :
    PendingScheduled t' ↔ Settles signer (if transfer then receiver else signer) receiver net cpu transfer ∨
      t.refunds.find? (if transfer then receiver else signer) = none := by
  obtain ⟨sum, t1, t2, t3, -, h1, h2, h3, h4⟩ := changebw_steps h
  obtain ⟨delband, rfl⟩ := updateDelegated_frame h1
  obtain ⟨userres, rfl⟩ := updateTotals_frame h2
  obtain ⟨voters, rfl⟩ := updateVotingPower_frame h4
  have hsettled := settle_scheduled (t := { t with delband, userres }) hp h3
  exact hsettled

lemma delegatebw_scheduled (h : env.delegatebw t signer receiver net cpu transfer = .ok (t', inlines)) :
    PendingScheduled t' ↔ ¬ Strands t (.delegatebw signer receiver net cpu transfer) := by
  obtain ⟨-, -, -, hpos, hflag, h⟩ := delegatebw_ok h
  rw [changebw_scheduled hp h]
  have hsome := Option.isSome_iff_ne_none (o := t.refunds.find? (if transfer then receiver else signer))
  simp only [Settles, Strands, hpos, decide_false, Bool.or_false, hsome]
  cases transfer with
  | true =>
    have hne : signer ≠ receiver := hflag.resolve_left nofun
    simp only [Bool.not_true, Bool.false_and, Bool.false_eq_true, or_false]
    tauto
  | false =>
    simp only [Bool.not_false, Bool.true_and, decide_eq_true_eq, Bool.false_eq_true, if_false]
    tauto

lemma undelegatebw_scheduled (h : env.undelegatebw t signer receiver net cpu = .ok (t', inlines)) :
    PendingScheduled t' := by
  obtain ⟨-, -, -, hneg, h⟩ := undelegatebw_ok h
  rw [changebw_scheduled hp h]
  exact .inl (.inr (by simp [hneg]))

lemma refund_scheduled (h : env.refund t owner = .ok (t', inlines)) : PendingScheduled t' := by
  obtain ⟨-, -, -, -, rfl, -⟩ := refund_ok h
  exact forall_erase hp

end

end Env

theorem refunds_stay_scheduled_iff {s s' : System} {a : Action} (hp : PendingScheduled s.staking)
    (h : s.apply env a = .ok (s', inlines)) : PendingScheduled s'.staking ↔ ¬ Strands s.staking a := by
  obtain ⟨⟨t', sent⟩, hrun, h⟩ := bind_ok h
  obtain ⟨token, -, h⟩ := bind_ok h
  cases h
  cases a with
  | delegatebw signer receiver net cpu transfer => exact Env.delegatebw_scheduled hp hrun
  | undelegatebw signer receiver net cpu => exact ⟨fun _ => id, fun _ => Env.undelegatebw_scheduled hp hrun⟩
  | refund owner => exact ⟨fun _ => id, fun _ => Env.refund_scheduled hp hrun⟩

def sys (n : Int64) : Asset := ⟨n, ⟨1398362884⟩⟩

def withRefund : System where
  token :=
    { stat := empty.set 5462355 ⟨sys 100, sys 1000, 9⟩
      accounts := ((empty.set (toLex (3, 5462355)) (sys 50)).set (toLex (stakeAccount, 5462355)) (sys 50)) }
  staking :=
    { delband := empty.set (toLex (1, 1)) ⟨sys 20, sys 20⟩
      userres := empty.set 1 ⟨⟨sys 20, sys 20⟩, 0⟩
      refunds := empty.set 1 ⟨⟨sys 5, sys 5⟩, 1, 0⟩
      voters := empty.set 1 { staked := 40 }
      scheduled := empty.set 1 ⟨1, refundDelay⟩ }

def signedBy (a : AccountName) : Env := { self := 9, hasAuth := fun b => b = a, core := ⟨1398362884⟩, now := 5 }

lemma withRefund_scheduled : PendingScheduled withRefund.staking := by
  intro a r hr
  dsimp only [withRefund] at hr ⊢
  rw [find?_set] at hr ⊢
  split_ifs at hr ⊢ with ha
  · exact ⟨_, rfl, ha⟩
  · cases hr

theorem undelegated_refund_scheduled : ∃ s' inlines, PendingScheduled withRefund.staking ∧
    withRefund.apply (signedBy 1) (.undelegatebw 1 1 (sys 3) (sys 4)) = .ok (s', inlines) ∧
    (s'.staking.refunds.find? 1).map (fun r => (r.net, r.cpu)) = some (sys 8, sys 9) ∧
    PendingScheduled s'.staking := by
  have hok : (withRefund.apply (signedBy 1) (.undelegatebw 1 1 (sys 3) (sys 4))).map
      (fun r => (r.1.staking.refunds.find? 1).map (fun r => (r.net, r.cpu))) = .ok (some (sys 8, sys 9)) := by
    decide +kernel
  obtain ⟨⟨s', inlines⟩, hs, hview⟩ := exists_of_map_ok hok
  exact ⟨s', inlines, withRefund_scheduled, hs, hview, (refunds_stay_scheduled_iff withRefund_scheduled hs).mpr id⟩

theorem gift_cancels_refund : ∃ s' inlines, PendingScheduled withRefund.staking ∧
    withRefund.apply (signedBy 3) (.delegatebw 3 1 (sys 1) (sys 1) true) = .ok (s', inlines) ∧
    s'.staking.refunds.find? 1 = withRefund.staking.refunds.find? 1 ∧ s'.staking.scheduled.find? 1 = none ∧
    ¬ PendingScheduled s'.staking := by
  have hok : (withRefund.apply (signedBy 3) (.delegatebw 3 1 (sys 1) (sys 1) true)).map
      (fun r => (r.1.staking.refunds.find? 1, r.1.staking.scheduled.find? 1)) =
        .ok (withRefund.staking.refunds.find? 1, none) := by
    decide +kernel
  obtain ⟨⟨s', inlines⟩, hs, hview⟩ := exists_of_map_ok hok
  obtain ⟨hrefund, hnone⟩ := Prod.mk.inj hview
  refine ⟨s', inlines, withRefund_scheduled, hs, hrefund, hnone, fun hp => ?_⟩
  obtain ⟨d, hd, -⟩ := hp 1 ⟨⟨sys 5, sys 5⟩, 1, 0⟩ hrefund
  exact nomatch hnone.symm.trans hd

end XosChain.Staking
