import XosChain.ResourceLimits.Manager

namespace XosChain.ResourceLimits

open Lib FlatMap List Limits

def total (f : Limits → ℤ) (m : FlatMap AccountName Limits) : ℕ := m.sum (fun _ l => (f l).toNat)

structure Fits (m : FlatMap AccountName Limits) : Prop where
  ram : total ramBytes m ≤ uint64Max
  cpu : total cpuWeight m ≤ uint64Max
  net : total netWeight m ≤ uint64Max

def applyLimits (m : FlatMap AccountName Limits) (updates : List (AccountName × Limits)) :
    FlatMap AccountName Limits :=
  updates.foldl (fun m e => m.set e.1 e.2) m

def LimitsFit (m : FlatMap AccountName Limits) (updates : List (AccountName × Limits)) : Prop :=
  ∀ done, done <+: updates → Fits (applyLimits m done)

variable {m : FlatMap AccountName Limits}

lemma LimitsFit.tail {e : AccountName × Limits} {l : List (AccountName × Limits)}
    (h : LimitsFit m (e :: l)) : LimitsFit (m.set e.1 e.2) l :=
  fun done hd => h (e :: done) ((prefix_cons_inj e).mpr hd)

lemma total_set {a : AccountName} {l : Limits} (f : Limits → ℤ)
    (l' : Limits) (h : m.find? a = some l) :
    total f (m.set a l') = total f m - (f l).toNat + (f l').toNat ∧ (f l).toNat ≤ total f m := by
  have hs := m.sum_set a l' (fun _ l => (f l).toNat)
  have he := m.sum_erase a (fun _ l => (f l).toNat)
  rw [h, Option.elim_some] at hs he
  simp only [total]
  omega

lemma updateStateAndValue_iff {t r : ℕ} {value pending : ℤ} {which : String} (ht : t ≤ uint64Max)
    (hv : value.toNat ≤ t) :
    Db.updateStateAndValue t value pending which = .ok r ↔
    r = t - value.toNat + pending.toNat ∧ t - value.toNat + pending.toNat ≤ uint64Max := by
  have hsub : (if value > 0 then t - value.toNat else t) = t - value.toNat := by
    split_ifs <;> omega
  have hadd : (if pending > 0 then t - value.toNat + pending.toNat else t - value.toNat) =
      t - value.toNat + pending.toNat := by
    split_ifs <;> omega
  simp only [Db.updateStateAndValue, hsub, hadd]
  constructor
  · intro h
    obtain ⟨_, h⟩ := eosAssert_ok h
    obtain ⟨hp, h⟩ := eosAssert_ok h
    exact ⟨(Except.ok.inj h).symm, by omega⟩
  · rintro ⟨rfl, hp⟩
    exact eosAssert_bind.mpr ⟨fun _ => hv, eosAssert_bind.mpr ⟨fun _ => by omega, rfl⟩⟩

namespace Db

structure TotalsExact (db : Db) : Prop where
  ram : db.state.totalRamBytes = total ramBytes db.limits
  cpu : db.state.totalCpuWeight = total cpuWeight db.limits
  net : db.state.totalNetWeight = total netWeight db.limits
  fits : Fits db.limits
  covered : ∀ a l, db.pendingLimits.find? a = some l → ∃ l', db.limits.find? a = some l'

structure SameUsage (s s' : ResourceState) : Prop where
  averageNet : s'.averageBlockNetUsage = s.averageBlockNetUsage
  averageCpu : s'.averageBlockCpuUsage = s.averageBlockCpuUsage
  pendingNet : s'.pendingNetUsage = s.pendingNetUsage
  pendingCpu : s'.pendingCpuUsage = s.pendingCpuUsage
  virtualNet : s'.virtualNetLimit = s.virtualNetLimit
  virtualCpu : s'.virtualCpuLimit = s.virtualCpuLimit

lemma SameUsage.refl (s : ResourceState) : SameUsage s s := ⟨rfl, rfl, rfl, rfl, rfl, rfl⟩

lemma SameUsage.trans {s s' s'' : ResourceState} (h : SameUsage s s') (h' : SameUsage s' s'') : SameUsage s s'' where
  averageNet := h'.averageNet.trans h.averageNet
  averageCpu := h'.averageCpu.trans h.averageCpu
  pendingNet := h'.pendingNet.trans h.pendingNet
  pendingCpu := h'.pendingCpu.trans h.pendingCpu
  virtualNet := h'.virtualNet.trans h.virtualNet
  virtualCpu := h'.virtualCpu.trans h.virtualCpu

section

variable {db db' : Db} {e : AccountName × Limits} {l : Limits} {updates : List (AccountName × Limits)}

lemma processLimitUpdate_iff (h : db.TotalsExact) (hl : db.limits.find? e.1 = some l) :
    db.processLimitUpdate e = .ok db' ↔
    Fits (db.limits.set e.1 e.2) ∧
      db' =
        { db with
          limits := db.limits.set e.1 e.2
          pendingLimits := db.pendingLimits.erase e.1
          state :=
            { db.state with
              totalRamBytes := total ramBytes (db.limits.set e.1 e.2)
              totalCpuWeight := total cpuWeight (db.limits.set e.1 e.2)
              totalNetWeight := total netWeight (db.limits.set e.1 e.2) } } := by
  obtain ⟨hram, hram'⟩ := total_set ramBytes e.2 hl
  obtain ⟨hcpu, hcpu'⟩ := total_set cpuWeight e.2 hl
  obtain ⟨hnet, hnet'⟩ := total_set netWeight e.2 hl
  have hget : getRow db.limits e.1 = .ok l := by
    rw [getRow, hl]
    rfl
  rw [processLimitUpdate, hget, h.ram, h.cpu, h.net]
  constructor
  · intro hok
    obtain ⟨_, hrow, hok⟩ := bind_ok hok
    cases hrow
    obtain ⟨_, hr, hok⟩ := bind_ok hok
    obtain ⟨_, hc, hok⟩ := bind_ok hok
    obtain ⟨_, hn, hok⟩ := bind_ok hok
    obtain ⟨rfl, hr'⟩ := (updateStateAndValue_iff h.fits.ram hram').mp hr
    obtain ⟨rfl, hc'⟩ := (updateStateAndValue_iff h.fits.cpu hcpu').mp hc
    obtain ⟨rfl, hn'⟩ := (updateStateAndValue_iff h.fits.net hnet').mp hn
    rw [← hram, ← hcpu, ← hnet] at hok
    exact ⟨⟨hram ▸ hr', hcpu ▸ hc', hnet ▸ hn'⟩, (Except.ok.inj hok).symm⟩
  · rintro ⟨hf, rfl⟩
    exact result_bind.mpr ⟨l, rfl,
      result_bind.mpr ⟨_, (updateStateAndValue_iff h.fits.ram hram').mpr ⟨hram, hram ▸ hf.ram⟩,
      result_bind.mpr ⟨_, (updateStateAndValue_iff h.fits.cpu hcpu').mpr ⟨hcpu, hcpu ▸ hf.cpu⟩,
      result_bind.mpr ⟨_, (updateStateAndValue_iff h.fits.net hnet').mpr ⟨hnet, hnet ▸ hf.net⟩, rfl⟩⟩⟩⟩

lemma processLimitUpdate_exact (h : db.TotalsExact) (hl : db.limits.find? e.1 = some l)
    (hok : db.processLimitUpdate e = .ok db') :
    db'.TotalsExact ∧ SameUsage db.state db'.state ∧ db'.config = db.config ∧ db'.limits = db.limits.set e.1 e.2 := by
  obtain ⟨hf, rfl⟩ := (processLimitUpdate_iff h hl).mp hok
  refine ⟨⟨rfl, rfl, rfl, hf, ?_⟩, ⟨rfl, rfl, rfl, rfl, rfl, rfl⟩, rfl, rfl⟩
  exact fun a p hp => exists_find?_set (h.covered a p (find?_erase_some hp).2)

lemma processLimitUpdates_iff (h : db.TotalsExact) (hl : ∀ e ∈ updates, ∃ l, db.limits.find? e.1 = some l) :
    (∃ db', updates.foldlM processLimitUpdate db = .ok db') ↔ LimitsFit db.limits updates := by
  induction updates generalizing db with
  | nil =>
    refine ⟨fun _ done hd => ?_, fun _ => ⟨db, rfl⟩⟩
    rw [prefix_nil.mp hd]
    exact h.fits
  | cons e updates ih =>
    obtain ⟨l, hle⟩ := hl e mem_cons_self
    have hrest : ∀ db', db.processLimitUpdate e = .ok db' →
        ((∃ db'', updates.foldlM processLimitUpdate db' = .ok db'') ↔ LimitsFit (db.limits.set e.1 e.2) updates) := by
      intro db' hok
      obtain ⟨hexact, _, _, hlim⟩ := processLimitUpdate_exact h hle hok
      rw [ih hexact, hlim]
      intro f hf
      exact hlim ▸ exists_find?_set (hl f (mem_cons_of_mem e hf))
    constructor
    · rintro ⟨db'', hok⟩
      obtain ⟨db', hstep, hok⟩ := bind_ok hok
      have hfit := (hrest db' hstep).mp ⟨db'', hok⟩
      intro done hd
      rcases prefix_cons_iff.mp hd with rfl | ⟨rest, rfl, hr⟩
      · exact h.fits
      · exact hfit rest hr
    · intro hfit
      have hstep := (processLimitUpdate_iff h hle).mpr
        ⟨hfit [e] ((prefix_cons_inj e).mpr nil_prefix), rfl⟩
      obtain ⟨db'', hok⟩ := (hrest _ hstep).mpr hfit.tail
      exact ⟨db'', result_bind.mpr ⟨_, hstep, hok⟩⟩

lemma processLimitUpdates_exact (h : db.TotalsExact) (hl : ∀ e ∈ updates, ∃ l, db.limits.find? e.1 = some l)
    (hok : updates.foldlM processLimitUpdate db = .ok db') :
    db'.TotalsExact ∧ SameUsage db.state db'.state ∧ db'.config = db.config := by
  induction updates generalizing db with
  | nil =>
    cases hok
    exact ⟨h, .refl _, rfl⟩
  | cons e updates ih =>
    obtain ⟨db1, hstep, hok⟩ := bind_ok hok
    obtain ⟨l, hle⟩ := hl e mem_cons_self
    obtain ⟨hexact, husage, hconf, hlim⟩ := processLimitUpdate_exact h hle hstep
    have hl' : ∀ f ∈ updates, ∃ l, db1.limits.find? f.1 = some l :=
      fun f hf => hlim ▸ exists_find?_set (hl f (mem_cons_of_mem e hf))
    obtain ⟨hexact', husage', hconf'⟩ := ih hexact hl' hok
    exact ⟨hexact', husage.trans husage', hconf'.trans hconf⟩

lemma TotalsExact.pending_covered (h : db.TotalsExact) :
    ∀ e ∈ db.pendingLimits.entries, ∃ l, db.limits.find? e.1 = some l :=
  fun e he => h.covered e.1 e.2 ((db.pendingLimits.find?_eq_some_iff e.1 e.2).mpr he)

end

end Db

end XosChain.ResourceLimits
