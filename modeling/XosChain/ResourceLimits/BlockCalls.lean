import XosChain.ResourceLimits.Totals
import XosChain.ResourceLimits.Clock

namespace XosChain.ResourceLimits

open Lib

def Call.InBlock : Call → Prop
  | .setBlockParameters _ _ => False
  | .processAccountLimitUpdates => False
  | .processBlockUsage _ => False
  | _ => True

namespace Db

structure Kept (db db' : Db) : Prop where
  config : db'.config = db.config
  averageNet : db'.state.averageBlockNetUsage = db.state.averageBlockNetUsage
  averageCpu : db'.state.averageBlockCpuUsage = db.state.averageBlockCpuUsage
  virtualNet : db'.state.virtualNetLimit = db.state.virtualNetLimit
  virtualCpu : db'.state.virtualCpuLimit = db.state.virtualCpuLimit
  exact : db.TotalsExact → db'.TotalsExact
  pendingNet : db.state.pendingNetUsage ≤ db.config.netLimitParameters.max →
    db'.state.pendingNetUsage ≤ db.config.netLimitParameters.max
  pendingCpu : db.state.pendingCpuUsage ≤ db.config.cpuLimitParameters.max →
    db'.state.pendingCpuUsage ≤ db.config.cpuLimitParameters.max

lemma Kept.refl (db : Db) : Kept db db := ⟨rfl, rfl, rfl, rfl, rfl, id, id, id⟩

lemma Kept.trans {db db' db'' : Db} (h : Kept db db') (h' : Kept db' db'') : Kept db db'' where
  config := h'.config.trans h.config
  averageNet := h'.averageNet.trans h.averageNet
  averageCpu := h'.averageCpu.trans h.averageCpu
  virtualNet := h'.virtualNet.trans h.virtualNet
  virtualCpu := h'.virtualCpu.trans h.virtualCpu
  exact := h'.exact ∘ h.exact
  pendingNet hp := h.config ▸ h'.pendingNet (h.config.symm ▸ h.pendingNet hp)
  pendingCpu hp := h.config ▸ h'.pendingCpu (h.config.symm ▸ h.pendingCpu hp)

section

variable {db db' : Db} {a : AccountName} {cpu net slot i j : ℕ} {clock : ℕ → Time}

lemma kept_usage (db : Db) (usage : FlatMap AccountName ResourceUsage)
    (perDay : FlatMap AccountName UsagePerDayAccumulator) :
    Kept db { db with usage, usagePerDay := perDay } :=
  ⟨rfl, rfl, rfl, rfl, rfl, fun h => ⟨h.ram, h.cpu, h.net, h.fits, h.covered⟩, id, id⟩

lemma updateUsage_kept (h : db.updateUsage cpu net slot a = .ok db') : Kept db db' := by
  obtain ⟨u, n, c, -, -, -, rfl⟩ := updateUsage_ok.mp h
  exact kept_usage db _ db.usagePerDay

variable {accounts : List AccountName}

lemma billAccounts_kept
    (h : db.billAccounts cpu net slot accounts clock i = (.ok db', j)) : Kept db db' := by
  refine billAccounts_rule (P := Kept db) ?_ (.refl db) h
  exact fun _ d _ _ hk hu => (hk.trans (updateUsage_kept hu)).trans (kept_usage d _ _)

lemma updateAccountUsage_kept
    (h : accounts.foldlM (fun db a => db.updateUsage 0 0 slot a) db = .ok db') : Kept db db' := by
  induction accounts generalizing db with
  | nil =>
    cases h
    exact .refl _
  | cons a accounts ih =>
    obtain ⟨db1, hstep, h⟩ := bind_ok h
    exact (updateUsage_kept hstep).trans (ih h)

lemma addPendingUsage_kept (h : db.addPendingUsage cpu net = .ok db') : Kept db db' := by
  obtain ⟨hc, h⟩ := eosAssert_ok h
  obtain ⟨hn, h⟩ := eosAssert_ok h
  cases h
  exact ⟨rfl, rfl, rfl, rfl, rfl, fun h => ⟨h.ram, h.cpu, h.net, h.fits, h.covered⟩, fun _ => hn, fun _ => hc⟩

lemma total_createRow (f : Limits → ℤ) (hf : f {} = -1) (h : db.limits.find? a = none) :
    total f (db.limits.set a {}) = total f db.limits := by
  have hs := db.limits.sum_set a {} (fun _ l => (f l).toNat)
  rw [h, hf] at hs
  simpa [total] using hs

lemma initializeAccount_kept (h : db.initializeAccount a = .ok db') : Kept db db' := by
  obtain ⟨_, hl, h⟩ := bind_ok h
  obtain ⟨_, _, h⟩ := bind_ok h
  obtain ⟨_, _, h⟩ := bind_ok h
  cases h
  obtain ⟨hnone, rfl⟩ := createRow_ok hl
  refine ⟨rfl, rfl, rfl, rfl, rfl, ?_, id, id⟩
  intro h
  have hram := total_createRow Limits.ramBytes rfl hnone
  have hcpu := total_createRow Limits.cpuWeight rfl hnone
  have hnet := total_createRow Limits.netWeight rfl hnone
  refine ⟨h.ram.trans hram.symm, h.cpu.trans hcpu.symm, h.net.trans hnet.symm, ?_, ?_⟩
  · exact ⟨hram.trans_le h.fits.ram, hcpu.trans_le h.fits.cpu, hnet.trans_le h.fits.net⟩
  · intro b p hp
    obtain ⟨l, hl⟩ := h.covered b p hp
    refine ⟨l, ?_⟩
    rw [FlatMap.find?_set_of_ne _ _ ?_]
    · exact hl
    · rintro rfl
      rw [hnone] at hl
      cases hl

lemma setAccountLimits_kept {l : Limits} {r : Bool × Db} (h : db.setAccountLimits a l = .ok r) : Kept db r.2 := by
  obtain ⟨old, hold, h⟩ := bind_ok h
  cases h
  refine ⟨rfl, rfl, rfl, rfl, rfl, ?_, id, id⟩
  intro h
  refine ⟨h.ram, h.cpu, h.net, h.fits, ?_⟩
  intro b p hp
  by_cases hb : a = b
  · subst hb
    rw [getAccountLimits] at hold
    cases hpend : db.pendingLimits.find? a with
    | some q => exact h.covered a q hpend
    | none =>
      rw [hpend, getRow] at hold
      cases hrow : db.limits.find? a with
      | some l' => exact ⟨l', rfl⟩
      | none =>
        rw [hrow] at hold
        cases hold
  · rw [FlatMap.find?_set_of_ne _ _ hb] at hp
    exact h.covered b p hp

lemma perform_kept {call : Call} (hc : call.InBlock) {r : Response × Db}
    (h : db.perform call clock i = (.ok r, j)) : Kept db r.2 := by
  obtain ⟨_, d⟩ := r
  cases perform_performed h with
  | addTransactionUsage hb hp => exact (billAccounts_kept hb).trans (addPendingUsage_kept hp)
  | initializeAccount h => exact initializeAccount_kept h
  | setAccountLimits h => exact setAccountLimits_kept h
  | updateAccountUsage h => exact updateAccountUsage_kept h
  | getAccountCpuLimit | getAccountNetLimit => exact .refl _
  | setBlockParameters | processAccountLimitUpdates | processBlockUsage => exact hc.elim

lemma run_kept {calls : List Call} (hc : ∀ call ∈ calls, call.InBlock) :
    Kept db (run clock i db calls).2 := by
  induction calls generalizing db i with
  | nil => exact .refl _
  | cons call calls ih =>
    have hstep : Kept db (db.outcome (db.perform call clock i).1).2 := by
      rcases hp : db.perform call clock i with ⟨e | r, k⟩
      · exact .refl _
      · exact perform_kept (hc call List.mem_cons_self) hp
    exact hstep.trans (ih fun c h => hc c (List.mem_cons_of_mem call h))

end

end Db

end XosChain.ResourceLimits
